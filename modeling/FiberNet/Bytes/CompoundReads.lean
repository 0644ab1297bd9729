import FiberNet.Bytes.RawReads
import FiberNet.Bytes.Varint

/-! # Truncated and malformed values

The readers that make several raw reads. A reader that throws at a later one than the first
has already moved the cursor.
-/

namespace FiberNet

namespace RawReader

/-! ## The readers -/

def readFixed (host endian : Endian) (count w : Nat) : RawReader (BitVec w) :=
  read count fun bytes =>
    let v := ofMemory host w bytes
    if endian = host then done v
    else done (byteSwap count v)

def readGroups {w : Nat} (stop limit : Nat) : (turns i : Nat) → (v : BitVec w) →
    RawReader (BitVec w)
  | 0, _, v => done v
  | turns + 1, i, v =>
      if i < stop then
        read 1 fun bytes =>
          let tmp := ofBytes bytes
          if tmp ≥ 0x80 then
            if i + 7 > limit then fail .logicError
            else readGroups stop limit turns (i + 7) (v ||| BitVec.ofNat w (tmp &&& 0x7f) <<< i)
          else done (v ||| BitVec.ofNat w tmp <<< i)
      else done v

/-- `str.resize(length); read(&str[0], length)`. -/
def readString (length : Nat) : RawReader (List UInt8) :=
  string length done

def readVint32 : RawReader Int32 := do
  return .ofBitVec (Decode (← readGroups 32 32 32 0 0))

def readVint64 : RawReader Int64 := do
  return .ofBitVec (Decode (← readGroups 64 64 64 0 0))

def readVuint32 : RawReader UInt32 := do
  return .ofBitVec (← readGroups 64 32 64 0 0)

def readVuint64 : RawReader UInt64 := do
  return .ofBitVec (← readGroups 64 64 64 0 0)

def readUint16 (host endian : Endian) : RawReader UInt16 := do
  return .ofBitVec (← readFixed host endian 2 16)

def readUint32 (host endian : Endian) : RawReader UInt32 := do
  return .ofBitVec (← readFixed host endian 4 32)

def readUint64 (host endian : Endian) : RawReader UInt64 := do
  return .ofBitVec (← readFixed host endian 8 64)

def readStringU16 (host endian : Endian) : RawReader (List UInt8) := do
  let length ← readUint16 host endian
  readString length.toNat

def readStringU32 (host endian : Endian) : RawReader (List UInt8) := do
  let length ← readUint32 host endian
  readString length.toNat

def readStringU64 (host endian : Endian) : RawReader (List UInt8) := do
  let length ← readUint64 host endian
  readString length.toNat

def readStringV64 : RawReader (List UInt8) := do
  let length ← readVuint64
  readString length.toNat

/-- The readers that make several raw reads. -/
inductive Compound
  | vint32 | vint64 | vuint32 | vuint64
  | stringU16 | stringU32 | stringU64 | stringV64
  deriving DecidableEq, Repr

def Compound.Result : Compound → Type
  | vint32 => Int32
  | vint64 => Int64
  | vuint32 => UInt32
  | vuint64 => UInt64
  | stringU16 | stringU32 | stringU64 | stringV64 => List UInt8

def Compound.reader (host endian : Endian) : (compound : Compound) → RawReader compound.Result
  | vint32 => readVint32
  | vint64 => readVint64
  | vuint32 => readVuint32
  | vuint64 => readVuint64
  | stringU16 => readStringU16 host endian
  | stringU32 => readStringU32 host endian
  | stringU64 => readStringU64 host endian
  | stringV64 => readStringV64

/-- The same reader of the codec. -/
def Compound.codec (host endian : Endian) : (compound : Compound) → Reader compound.Result
  | vint32 => FiberNet.readVint32
  | vint64 => FiberNet.readVint64
  | vuint32 => FiberNet.readVuint32
  | vuint64 => FiberNet.readVuint64
  | stringU16 => FiberNet.readStringU16 host endian
  | stringU32 => FiberNet.readStringU32 host endian
  | stringU64 => FiberNet.readStringU64 host endian
  | stringV64 => FiberNet.readStringV64

/-- How many bytes the first raw read asks for. -/
def Compound.first : Compound → Nat
  | vint32 | vint64 | vuint32 | vuint64 | stringV64 => 1
  | stringU16 => 2
  | stringU32 => 4
  | stringU64 => 8

/-! ## On a list of bytes they are the readers of the codec -/

theorem onBytes_readFixed (host endian : Endian) (count w : Nat) :
    (readFixed host endian count w).onBytes = FiberNet.readFixed host endian count w := by
  unfold readFixed FiberNet.readFixed
  rw [onBytes]
  congr 1
  funext bytes
  simp only
  split <;> rfl

theorem onBytes_readGroups {w : Nat} (stop limit turns : Nat) : ∀ (i : Nat) (v : BitVec w),
    (readGroups stop limit turns i v).onBytes = FiberNet.readGroups stop limit turns i v := by
  induction turns with
  | zero =>
      intro i v
      rfl
  | succ turns ih =>
      intro i v
      unfold readGroups FiberNet.readGroups
      split
      · rw [onBytes]
        congr 1
        funext bytes
        simp only
        split
        · split
          · rfl
          · exact ih _ _
        · rfl
      · rfl

theorem onBytes_readString (length : Nat) :
    (readString length).onBytes = Reader.read length :=
  bind_pure (Reader.read length)

theorem onBytes_map {α β : Type} (reader : RawReader α) (f : α → β) :
    (do return f (← reader) : RawReader β).onBytes = (do return f (← reader.onBytes)) :=
  onBytes_bind reader fun value => done (f value)

theorem onBytes_length {β : Type} (reader : RawReader β) (size : β → Nat) :
    (do readString (size (← reader)) : RawReader (List UInt8)).onBytes =
      (do Reader.read (size (← reader.onBytes))) := by
  rw [onBytes_bind]
  congr 1
  funext length
  exact onBytes_readString (size length)

theorem onBytes_reader (host endian : Endian) (compound : Compound) :
    (compound.reader host endian).onBytes = compound.codec host endian := by
  cases compound with
  | vint32 | vint64 | vuint32 | vuint64 =>
      refine (onBytes_map _ _).trans ?_
      rw [onBytes_readGroups]
      rfl
  | stringU16 | stringU32 | stringU64 =>
      refine (onBytes_length _ _).trans ?_
      refine congrArg (· >>= _) ((onBytes_map _ _).trans ?_)
      rw [onBytes_readFixed]
      rfl
  | stringV64 =>
      refine (onBytes_length _ _).trans ?_
      refine congrArg (· >>= _) ((onBytes_map _ _).trans ?_)
      rw [onBytes_readGroups]
      rfl

/-! ## Which bytes a reader accepts -/

/-- The bytes begin with a number that the loop gets to the end of. -/
def Terminated (w : Nat) (data : List UInt8) : Prop :=
  ∃ front last rest, data = front ++ last :: rest ∧ Encoded front last ∧ 7 * front.length < w

/-- The bytes begin with a length of `count` bytes and a string of that length. -/
def Counted (endian : Endian) (count : Nat) (data : List UInt8) : Prop :=
  count + ofBytes (endian.arrange (data.take count)) ≤ data.length

/-- The bytes begin with a whole value. Of a length in groups, 64 bits count. -/
def Compound.Complete (endian : Endian) : Compound → List UInt8 → Prop
  | vint32, data | vuint32, data => Terminated 32 data
  | vint64, data | vuint64, data => Terminated 64 data
  | stringU16, data => Counted endian 2 data
  | stringU32, data => Counted endian 4 data
  | stringU64, data => Counted endian 8 data
  | stringV64, data => ∃ front last rest, data = front ++ last :: rest ∧ Encoded front last ∧
      7 * front.length < 64 ∧ groupSum (front ++ [last]) % 2 ^ 64 ≤ rest.length

theorem fails_iff {α : Type} {reader : RawReader α} {data : List UInt8} :
    reader.Fails data ↔ ¬∃ value rest, reader.onBytes data = .ok (value, rest) := by
  unfold Fails
  cases reader.onBytes data with
  | error failure => simp
  | ok result => simpa using ⟨_, _, rfl⟩

theorem toNat_fixed (endian : Endian) {count : Nat} {data : List UInt8}
    (present : count ≤ data.length) :
    ofBytes (endian.arrange (data.take count)) < 2 ^ (8 * count) := by
  have below := ofBytes_lt (endian.arrange (data.take count))
  rwa [Endian.length_arrange, List.length_take, Nat.min_eq_left present,
    show 256 = 2 ^ 8 from rfl, ← Nat.pow_mul] at below

theorem readFixed_iff {host endian : Endian} {count : Nat} {v : BitVec (8 * count)}
    {data rest : List UInt8} :
    FiberNet.readFixed host endian count (8 * count) data = .ok (v, rest) ↔
      count ≤ data.length ∧ v.toNat = ofBytes (endian.arrange (data.take count)) ∧
        rest = data.drop count := by
  rcases Nat.lt_or_ge data.length count with short | present
  · have refused : FiberNet.readFixed host endian count (8 * count) data =
        .error .outOfRange := by
      unfold FiberNet.readFixed
      simp only [Bind.bind, StateT.bind, Reader.read, gt_iff_lt, short, ↓reduceIte, Except.bind]
    rw [refused]
    constructor
    · intro impossible
      cases impossible
    · rintro ⟨present, _⟩
      omega
  · have number := toNat_small (toNat_fixed endian present)
    have length : (data.take count).length = count := by
      rw [List.length_take, Nat.min_eq_left present]
    have bytes := toBytes_ofBytes (endian.arrange (data.take count))
    rw [Endian.length_arrange, length] at bytes
    have read := reads_fixed host endian count
      (BitVec.ofNat (8 * count) (ofBytes (endian.arrange (data.take count)))) (data.drop count)
    rw [number, bytes, Endian.arrange_arrange, List.take_append_drop] at read
    rw [read]
    constructor
    · intro same
      cases same
      exact ⟨present, number, rfl⟩
    · rintro ⟨_, value, rfl⟩
      congr 2
      apply BitVec.eq_of_toNat_eq
      rw [number, value]

theorem read_ok_iff {size : Nat} {data : List UInt8} :
    (∃ bytes rest, Reader.read size data = .ok (bytes, rest)) ↔ size ≤ data.length := by
  rw [Reader.read]
  split
  · rename_i beyond
    simpa using beyond
  · rename_i present
    simpa using Nat.le_of_not_lt present

/-- A reader of a length and a string returns if and only if both are there. -/
theorem length_ok_iff {β : Type} {reader : Reader β} {size : β → Nat} {data : List UInt8} :
    (∃ value rest, (do Reader.read (size (← reader))) data = .ok (value, rest)) ↔
      ∃ length left, reader data = .ok (length, left) ∧ size length ≤ left.length := by
  constructor
  · rintro ⟨value, rest, returned⟩
    rcases Reader.bind_ok_iff.mp returned with ⟨length, left, first, later⟩
    exact ⟨length, left, first, read_ok_iff.mp ⟨value, rest, later⟩⟩
  · rintro ⟨length, left, first, present⟩
    rcases read_ok_iff.mpr present with ⟨value, rest, later⟩
    exact ⟨value, rest, Reader.bind_ok_iff.mpr ⟨length, left, first, later⟩⟩

theorem result_ok_iff {α β : Type} {reader : Reader α} {f : α → β} {value : β}
    {data rest : List UInt8} :
    (do return f (← reader) : Reader β) data = .ok (value, rest) ↔
      ∃ middle, reader data = .ok (middle, rest) ∧ value = f middle := by
  rw [Reader.bind_ok_iff]
  constructor
  · rintro ⟨middle, left, first, later⟩
    cases later
    exact ⟨middle, first, rfl⟩
  · rintro ⟨middle, first, rfl⟩
    exact ⟨middle, rest, first, rfl⟩

theorem terminated_iff {β : Type} {w stop turns : Nat} {of : BitVec w → β} {data : List UInt8}
    (loops : w ≤ stop) (short : w % 7 ≠ 0) (enough : stop ≤ 7 * turns) :
    (∃ value rest, (do return of (← FiberNet.readGroups stop w turns 0 0) : Reader β) data =
      .ok (value, rest)) ↔ Terminated w data := by
  constructor
  · rintro ⟨value, rest, returned⟩
    rcases result_ok_iff.mp returned with ⟨number, looped, _⟩
    rcases (readGroups_iff loops short enough).mp looped
      with ⟨front, last, same, encoded, within, _⟩
    exact ⟨front, last, rest, same, encoded, within⟩
  · rintro ⟨front, last, rest, same, encoded, within⟩
    have looped := (@readGroups_iff w stop turns _ _ rest loops short enough).mpr
      ⟨front, last, same, encoded, within, rfl⟩
    exact ⟨_, rest, result_ok_iff.mpr ⟨_, looped, rfl⟩⟩

theorem counted_iff {β : Type} {host endian : Endian} {count : Nat} {of : BitVec (8 * count) → β}
    {size : β → Nat} (sizes : ∀ v, size (of v) = v.toNat) {data : List UInt8} :
    (∃ value rest, (do Reader.read (size (← (do
      return of (← FiberNet.readFixed host endian count (8 * count)) : Reader β)))) data =
        .ok (value, rest)) ↔ Counted endian count data := by
  rw [length_ok_iff, Counted]
  constructor
  · rintro ⟨length, left, returned, fits⟩
    rcases result_ok_iff.mp returned with ⟨v, first, rfl⟩
    rcases readFixed_iff.mp first with ⟨present, number, rfl⟩
    rw [sizes, number, List.length_drop] at fits
    omega
  · intro fits
    have present : count ≤ data.length := by omega
    refine ⟨_, data.drop count, result_ok_iff.mpr ⟨_, readFixed_iff.mpr
      ⟨present, toNat_small (toNat_fixed endian present), rfl⟩, rfl⟩, ?_⟩
    rw [sizes, toNat_small (toNat_fixed endian present), List.length_drop]
    omega

theorem complete_iff (host endian : Endian) (compound : Compound) (data : List UInt8) :
    (compound.reader host endian).Fails data ↔ ¬compound.Complete endian data := by
  rw [fails_iff, onBytes_reader]
  apply not_congr
  cases compound with
  | vint32 => exact terminated_iff (by decide) (by decide) (by decide)
  | vint64 => exact terminated_iff (by decide) (by decide) (by decide)
  | vuint32 => exact terminated_iff (by decide) (by decide) (by decide)
  | vuint64 => exact terminated_iff (by decide) (by decide) (by decide)
  | stringU16 =>
      exact @counted_iff UInt16 host endian 2 UInt16.ofBitVec UInt16.toNat (fun v => rfl) data
  | stringU32 =>
      exact @counted_iff UInt32 host endian 4 UInt32.ofBitVec UInt32.toNat (fun v => rfl) data
  | stringU64 =>
      exact @counted_iff UInt64 host endian 8 UInt64.ofBitVec UInt64.toNat (fun v => rfl) data
  | stringV64 =>
      refine length_ok_iff.trans ?_
      constructor
      · rintro ⟨length, left, returned, fits⟩
        rcases result_ok_iff.mp returned with ⟨number, looped, rfl⟩
        rcases (readGroups_iff (by decide) (by decide) (by decide)).mp looped
          with ⟨front, last, same, encoded, within, rfl⟩
        exact ⟨front, last, left, same, encoded, within, fits⟩
      · rintro ⟨front, last, left, same, encoded, within, fits⟩
        have looped := (@readGroups_iff 64 64 64 _ _ left (by decide) (by decide) (by decide)).mpr
          ⟨front, last, same, encoded, within, rfl⟩
        exact ⟨_, left, result_ok_iff.mpr ⟨_, looped, rfl⟩, fits⟩

/-- The readers start with a raw read. -/
theorem reader_eq (host endian : Endian) (compound : Compound) :
    ∃ next, compound.reader host endian = read compound.first next := by
  cases compound <;> exact ⟨_, rfl⟩

/-- A failed read leaves the cursor alone if and only if the first raw read is the one that
fails. -/
theorem compound_atomic_iff (heap : Nat → UInt8) (granted : Nat → Bool) (host endian : Endian)
    (compound : Compound) {array : ByteArray} (ready : array.Ready) :
    Atomic heap granted (compound.reader host endian) array ↔
      array.getReadableSize < compound.first ∨
        compound.Complete endian (array.ahead heap) := by
  rcases reader_eq host endian compound with ⟨next, same⟩
  have positive : 0 < compound.first := by cases compound <;> decide
  have fails := complete_iff host endian compound (array.ahead heap)
  rw [same] at fails ⊢
  rw [atomic_read_iff ready positive, fails, not_not]

/-- A cleared array to which the byte 80 has been written, from the start. -/
def started : ByteArray where
  totalSize := 1
  blockSize := 16
  position := 0
  capacity := 32
  chain := [Block.fresh.store 0 [128], Block.fresh]
  cur := 0
  blockSize_pos := by decide
  chain_pos := by decide

theorem ready_started : started.Ready :=
  ⟨rfl, by decide, by decide⟩

theorem compound_atomic_started :
    Atomic (fun _ => 0) (fun _ => true) (Compound.stringU16.reader .little .big) started :=
  (compound_atomic_iff (fun _ => 0) (fun _ => true) .little .big .stringU16 ready_started).mpr
    (.inl (by decide))

/-- The byte says that another one follows. It is consumed before that one is missed. -/
theorem not_compound_atomic :
    ¬∀ compound : Compound,
      Atomic (fun _ => 0) (fun _ => true) (compound.reader .little .little) started := by
  intro atomic
  have same := ((atomic .vuint32).unchanged ⟨.outOfRange, by rfl⟩).2
  exact absurd (congrArg ByteArray.position same) (by decide)

end RawReader

end FiberNet
