import FiberNet.Bytes.Codec

/-! # Values come back as they were written

Every operation reads exactly the bytes that its counterpart writes, whatever follows them.
-/

namespace FiberNet

/-- On `bytes`, whatever follows, the reader returns `value` and leaves what follows. -/
def Reads {α : Type} (reader : Reader α) (bytes : List UInt8) (value : α) : Prop :=
  ∀ trailing, reader (bytes ++ trailing) = .ok (value, trailing)

theorem reads_pure {α : Type} (value : α) : Reads (pure value) [] value :=
  fun _ => rfl

theorem Reads.followed {α β : Type} {reader : Reader α} {bytes : List UInt8} {value : α}
    (read : Reads reader bytes value) (next : α → Reader β) (trailing : List UInt8) :
    (reader >>= next) (bytes ++ trailing) = next value trailing := by
  simp only [Bind.bind, StateT.bind, read trailing, Except.bind]

theorem Reads.bind {α β : Type} {reader : Reader α} {next : α → Reader β}
    {first second : List UInt8} {middle : α} {value : β} (before : Reads reader first middle)
    (after : Reads (next middle) second value) :
    Reads (reader >>= next) (first ++ second) value := by
  intro trailing
  rw [List.append_assoc, before.followed]
  exact after trailing

theorem Reads.map {α β : Type} {reader : Reader α} {bytes : List UInt8} {value : α}
    (read : Reads reader bytes value) (f : α → β) : Reads (f <$> reader) bytes (f value) := by
  intro trailing
  simp only [Functor.map, StateT.map, Bind.bind, Except.bind, read trailing, pure, Except.pure]

theorem reads_read (bytes : List UInt8) : Reads (Reader.read bytes.length) bytes bytes := by
  intro trailing
  have enough : ¬bytes.length > (bytes ++ trailing).length := by
    rw [List.length_append]
    omega
  rw [Reader.read, if_neg enough, List.take_left, List.drop_left]

/-! ## Integers of a fixed width -/

@[simp] theorem length_memory {w : Nat} (host : Endian) (count : Nat) (v : BitVec w) :
    (memory host count v).length = count := by
  simp [memory]

theorem ofMemory_memory (host : Endian) (count : Nat) (v : BitVec (8 * count)) :
    ofMemory host (8 * count) (memory host count v) = v := by
  have below := v.isLt
  rw [Nat.pow_mul] at below
  apply BitVec.eq_of_toNat_eq
  rw [ofMemory, memory, Endian.arrange_arrange, ofBytes_toBytes, BitVec.toNat_ofNat,
    Nat.mod_eq_of_lt below, Nat.mod_eq_of_lt v.isLt]

theorem toBytes_byteSwap (count : Nat) (v : BitVec (8 * count)) :
    toBytes count (byteSwap count v).toNat = (toBytes count v.toNat).reverse := by
  have length : (toBytes count v.toNat).reverse.length = count := by simp
  have below := ofBytes_lt (toBytes count v.toNat).reverse
  have back := toBytes_ofBytes (toBytes count v.toNat).reverse
  rw [length] at below back
  rw [byteSwap, BitVec.toNat_ofNat, Nat.pow_mul, Nat.mod_eq_of_lt below, back]

theorem byteSwap_byteSwap (count : Nat) (v : BitVec (8 * count)) :
    byteSwap count (byteSwap count v) = v := by
  have twice := ofMemory_memory .little count v
  rw [byteSwap, toBytes_byteSwap, List.reverse_reverse]
  exact twice

/-- The bytes of a number in the selected order, whatever the order of the host. -/
theorem writeFixed_eq (host endian : Endian) (count : Nat) (val : BitVec (8 * count)) :
    writeFixed host endian count val = .ok [endian.arrange (toBytes count val.toNat)] := by
  unfold writeFixed memory
  simp only
  split
  · rename_i differ
    rw [toBytes_byteSwap, Endian.arrange_reverse differ]
  · rename_i same
    rw [not_not.mp same]

theorem reads_fixed (host endian : Endian) (count : Nat) (val : BitVec (8 * count)) :
    Reads (readFixed host endian count (8 * count))
      (endian.arrange (toBytes count val.toNat)) val := by
  have length : (endian.arrange (toBytes count val.toNat)).length = count := by simp
  have read := reads_read (endian.arrange (toBytes count val.toNat))
  rw [length] at read
  rw [readFixed, ← List.append_nil (endian.arrange (toBytes count val.toNat))]
  apply read.bind
  simp only
  split
  · rename_i same
    have whole := ofMemory_memory host count val
    rw [memory] at whole
    rw [same, whole]
    exact reads_pure val
  · rename_i differ
    have swapped := ofMemory_memory host count (byteSwap count val)
    rw [memory, toBytes_byteSwap, Endian.arrange_reverse differ] at swapped
    rw [swapped, byteSwap_byteSwap]
    exact reads_pure val

/-! ## Integers of seven bits a byte -/

theorem toNat_small {w number : Nat} (fits : number < 2 ^ w) :
    (BitVec.ofNat w number).toNat = number := by
  rw [BitVec.toNat_ofNat, Nat.mod_eq_of_lt fits]

theorem toNat_one {w : Nat} (wide : 1 < w) : (1 : BitVec w).toNat = 1 :=
  toNat_small (Nat.one_lt_two_pow (by omega))

theorem Decode_even {w : Nat} {v : BitVec w} (wide : 1 < w) (even : v.toNat % 2 = 0) :
    Decode v = v >>> 1 := by
  have low : v &&& 1 = 0#w := by
    apply BitVec.eq_of_toNat_eq
    rw [BitVec.toNat_and, toNat_one wide, Nat.and_one_is_mod, even, BitVec.toNat_zero]
  rw [Decode, low, BitVec.neg_zero, BitVec.xor_zero]

theorem Decode_odd {w : Nat} {v : BitVec w} (wide : 1 < w) (odd : v.toNat % 2 = 1) :
    Decode v = ~~~(v >>> 1) := by
  have low : v &&& 1 = 1#w := by
    apply BitVec.eq_of_toNat_eq
    rw [BitVec.toNat_and, toNat_one wide, Nat.and_one_is_mod, odd]
    exact (toNat_one wide).symm
  rw [Decode, low, BitVec.neg_one_eq_allOnes, BitVec.xor_allOnes]

/-- Also of the least number, whose negative is itself. -/
theorem Decode_Encode {w : Nat} (wide : 1 < w) (v : BitVec w) : Decode (Encode v) = v := by
  have below := v.isLt
  have half : 2 ^ w = 2 * 2 ^ (w - 1) := by
    rw [← Nat.pow_succ']
    congr 1
    omega
  have two : (2 : BitVec w).toNat = 2 :=
    @toNat_small w 2 (Nat.pow_lt_pow_right (by decide : 1 < 2) wide)
  have negative : v.slt 0 = v.msb := BitVec.slt_zero_eq_msb
  rw [Encode, negative]
  cases sign : v.msb with
  | false =>
      have small := BitVec.msb_eq_false_iff_two_mul_lt.mp sign
      have double : (v * 2).toNat = 2 * v.toNat := by
        rw [BitVec.toNat_mul, two, Nat.mul_comm, Nat.mod_eq_of_lt small]
      rw [if_neg Bool.false_ne_true, Decode_even wide (by omega)]
      apply BitVec.eq_of_toNat_eq
      rw [BitVec.toNat_ushiftRight, double, Nat.shiftRight_eq_div_pow]
      omega
  | true =>
      have large := BitVec.msb_eq_true_iff_two_mul_ge.mp sign
      have opposite : (-v).toNat = 2 ^ w - v.toNat := by
        rw [BitVec.toNat_neg, Nat.mod_eq_of_lt (by omega)]
      have double : (-v * 2 - 1).toNat = 2 * (2 ^ w - v.toNat) - 1 := by
        rw [BitVec.toNat_sub, BitVec.toNat_mul, two, toNat_one wide, opposite]
        rcases Nat.lt_or_ge ((2 ^ w - v.toNat) * 2) (2 ^ w) with fits | least
        · rw [Nat.mod_eq_of_lt fits]
          have sum : 2 ^ w - 1 + (2 ^ w - v.toNat) * 2 =
              2 * (2 ^ w - v.toNat) - 1 + 2 ^ w := by omega
          rw [sum, Nat.add_mod_right, Nat.mod_eq_of_lt (by omega)]
        · have whole : (2 ^ w - v.toNat) * 2 = 2 ^ w := by omega
          rw [whole, Nat.mod_self, Nat.add_zero, Nat.mod_eq_of_lt (by omega)]
          omega
      rw [if_pos rfl, Decode_odd wide (by omega)]
      apply BitVec.eq_of_toNat_eq
      rw [BitVec.toNat_not, BitVec.toNat_ushiftRight, double, Nat.shiftRight_eq_div_pow]
      omega

theorem toNat_byte {w number : Nat} (wide : 8 ≤ w) (byte : number < 256) :
    (BitVec.ofNat w number).toNat = number :=
  toNat_small (Nat.lt_of_lt_of_le byte (Nat.pow_le_pow_right (n := 2) (by decide) wide))

theorem continues_iff {w : Nat} (wide : 8 ≤ w) (v : BitVec w) :
    v ≥ 0x80 ↔ 128 ≤ v.toNat := by
  have bound : (0x80 : BitVec w).toNat = 128 := toNat_byte wide (by decide)
  rw [ge_iff_le, BitVec.le_def, bound]

theorem toNat_shift (w : Nat) (v : BitVec w) : (v >>> 7).toNat = v.toNat / 128 := by
  rw [BitVec.toNat_ushiftRight, Nat.shiftRight_eq_div_pow]

/-- The bytes of a number fit in the scratch buffer if its groups do. -/
theorem groups_fit {w : Nat} (wide : 8 ≤ w) : ∀ {room : Nat} {v : BitVec w},
    v.toNat < 128 ^ (room + 1) → ∃ bytes, groups (room + 1) v = .ok bytes
  | room, v, fits => by
      rw [groups]
      split
      · rename_i continues
        have large := (continues_iff wide v).mp continues
        cases room with
        | zero => omega
        | succ room =>
            have rest_fits : (v >>> 7).toNat < 128 ^ (room + 1) := by
              rw [toNat_shift]
              rw [Nat.pow_succ] at fits
              exact Nat.div_lt_of_lt_mul (by omega)
            rcases groups_fit wide rest_fits with ⟨rest, written⟩
            rw [written]
            exact ⟨_, rfl⟩
      · exact ⟨_, rfl⟩

/-- The byte that says that more follow. -/
theorem toNat_continued {w : Nat} (wide : 8 ≤ w) (v : BitVec w) :
    (UInt8.ofBitVec (((v &&& 0x7f) ||| 0x80).setWidth 8)).toNat = v.toNat % 128 + 128 := by
  have mask : (0x7f : BitVec w).toNat = 127 := toNat_byte wide (by decide)
  have flag : (0x80 : BitVec w).toNat = 128 := toNat_byte wide (by decide)
  have low : v.toNat &&& 127 = v.toNat % 128 := Nat.and_two_pow_sub_one_eq_mod v.toNat 7
  have below : v.toNat % 128 < 2 ^ 7 := Nat.mod_lt _ (by decide)
  have sum : 128 + v.toNat % 128 = 128 ||| v.toNat % 128 :=
    Nat.two_pow_add_eq_or_of_lt below 1
  rw [UInt8.toNat_ofBitVec, BitVec.toNat_setWidth, BitVec.toNat_or, BitVec.toNat_and, mask, flag,
    low, Nat.or_comm]
  omega

theorem toNat_last {w : Nat} {v : BitVec w} (last : v.toNat < 128) :
    (UInt8.ofBitVec (v.setWidth 8)).toNat = v.toNat := by
  rw [UInt8.toNat_ofBitVec, BitVec.toNat_setWidth]
  omega

/-- Bits that are put above those already read. -/
theorem toNat_above {w i : Nat} {v x : BitVec w} (below : v.toNat < 2 ^ i)
    (fits : v.toNat + x.toNat * 2 ^ i < 2 ^ w) :
    (v ||| x <<< i).toNat = v.toNat + x.toNat * 2 ^ i := by
  have sum := Nat.two_pow_add_eq_or_of_lt below x.toNat
  rw [BitVec.toNat_or, BitVec.toNat_shiftLeft, Nat.shiftLeft_eq, Nat.mod_eq_of_lt (by omega),
    Nat.or_comm, Nat.mul_comm, ← sum, Nat.mul_comm]
  omega

theorem split_group (x i : Nat) :
    x * 2 ^ i = x % 128 * 2 ^ i + x / 128 * 2 ^ (i + 7) := by
  rw [Nat.pow_add, Nat.mul_comm (2 ^ i), ← Nat.mul_assoc, ← Nat.add_mul,
    Nat.mul_comm (x / 128), Nat.mod_add_div]

/-- The lowest group of `x`, put above the bits already read. -/
theorem toNat_group {w i : Nat} {v x : BitVec w} (wide : 8 ≤ w) (below : v.toNat < 2 ^ i)
    (fits : v.toNat + x.toNat * 2 ^ i < 2 ^ w) :
    (v ||| BitVec.ofNat w (x.toNat % 128) <<< i).toNat =
        v.toNat + x.toNat % 128 * 2 ^ i ∧
      v.toNat + x.toNat % 128 * 2 ^ i < 2 ^ (i + 7) := by
  have parts := split_group x.toNat i
  have digit : (BitVec.ofNat w (x.toNat % 128)).toNat = x.toNat % 128 :=
    toNat_byte wide (by omega)
  have power : 2 ^ (i + 7) = 128 * 2 ^ i := by rw [Nat.pow_add, Nat.mul_comm]
  have small : x.toNat % 128 ≤ 127 := by omega
  have scaled := Nat.mul_le_mul_right (2 ^ i) small
  constructor
  · rw [toNat_above below (by rw [digit]; omega), digit]
  · omega

theorem regroup {w i : Nat} {v x : BitVec w} (wide : 8 ≤ w) (below : v.toNat < 2 ^ i)
    (fits : v.toNat + x.toNat * 2 ^ i < 2 ^ w) :
    v ||| BitVec.ofNat w (x.toNat % 128) <<< i ||| (x >>> 7) <<< (i + 7) = v ||| x <<< i := by
  have parts := split_group x.toNat i
  rcases toNat_group wide below fits with ⟨value, bound⟩
  apply BitVec.eq_of_toNat_eq
  rw [toNat_above below fits, toNat_above, value, toNat_shift]
  · omega
  · rwa [value]
  · rw [value, toNat_shift]
    omega

/-- What the loop does with a byte that more follow. -/
theorem readGroups_continued {w stop limit turns i : Nat} {v : BitVec w} {byte : UInt8}
    {rest : List UInt8} {value : BitVec w} (inside : i < stop) (continued : 128 ≤ byte.toNat)
    (fits : i + 7 ≤ limit)
    (read : Reads (readGroups stop limit turns (i + 7)
      (v ||| BitVec.ofNat w (byte.toNat % 128) <<< i)) rest value) :
    Reads (readGroups stop limit (turns + 1) i v) (byte :: rest) value := by
  have low : byte.toNat &&& 0x7f = byte.toNat % 128 :=
    Nat.and_two_pow_sub_one_eq_mod byte.toNat 7
  have within : ¬limit < i + 7 := by omega
  rw [readGroups, if_pos inside, ← List.singleton_append]
  apply (reads_read [byte]).bind
  simpa [ofBytes, continued, within, low] using read

theorem readGroups_last {w stop limit turns i : Nat} {v : BitVec w} {byte : UInt8}
    (inside : i < stop) (last : byte.toNat < 128) :
    Reads (readGroups stop limit (turns + 1) i v) [byte]
      (v ||| BitVec.ofNat w byte.toNat <<< i) := by
  have not_continued : ¬128 ≤ byte.toNat := by omega
  rw [readGroups, if_pos inside, ← List.append_nil [byte]]
  apply (reads_read [byte]).bind
  simpa [ofBytes, not_continued] using reads_pure (v ||| BitVec.ofNat w byte.toNat <<< i)

/-- The groups of a number are put above the bits already read. -/
theorem groups_reads {w stop limit : Nat} (wide : 8 ≤ w) (loops : w ≤ stop) (holds : w ≤ limit) :
    ∀ {room turns i : Nat} {v x : BitVec w} {bytes : List UInt8},
    groups room x = .ok bytes → v.toNat < 2 ^ i → v.toNat + x.toNat * 2 ^ i < 2 ^ w →
    i < w → stop ≤ i + 7 * turns →
    Reads (readGroups stop limit turns i v) bytes (v ||| x <<< i)
  | 0, _, _, _, _, _, written, _, _, _, _ => by cases written
  | room + 1, 0, i, _, _, _, _, _, _, inside, enough => by omega
  | room + 1, turns + 1, i, v, x, bytes, written, below, fits, inside, enough => by
      rw [groups] at written
      split at written
      · rename_i continues
        have large := (continues_iff wide x).mp continues
        cases following : groups room (x >>> 7) with
        | error failure =>
            rw [following] at written
            cases written
        | ok rest =>
            rw [following] at written
            cases written
            have byte := toNat_continued wide x
            have parts := split_group x.toNat i
            have more := Nat.mul_le_mul_right (2 ^ i) large
            have further : i + 7 < w := by
              apply (Nat.pow_lt_pow_iff_right (by decide : 1 < 2)).mp
              rw [Nat.pow_add, Nat.mul_comm]
              omega
            rcases toNat_group wide below fits with ⟨value, bound⟩
            have read := @groups_reads w stop limit wide loops holds room turns (i + 7) _ _ _
              following (by rwa [value]) (by rw [value, toNat_shift]; omega) further (by omega)
            rw [regroup wide below fits] at read
            apply readGroups_continued (by omega) (by rw [byte]; omega) (by omega)
            rw [byte, Nat.add_mod_right, Nat.mod_mod]
            exact read
      · rename_i stops
        have small : x.toNat < 128 := by
          rw [continues_iff wide] at stops
          omega
        cases written
        have last := toNat_last small
        have whole := @readGroups_last w stop limit turns i v _
          (by omega) (by rw [last]; exact small)
        rw [last, BitVec.ofNat_toNat, BitVec.setWidth_eq] at whole
        exact whole

theorem groups_round {w stop limit room : Nat} (wide : 8 ≤ w) (loops : w ≤ stop)
    (holds : w ≤ limit) {v : BitVec w} (fits : v.toNat < 128 ^ (room + 1)) :
    ∃ bytes, groups (room + 1) v = .ok bytes ∧
      Reads (readGroups stop limit stop 0 0) bytes v := by
  rcases @groups_fit w wide room v fits with ⟨bytes, written⟩
  have read := @groups_reads w stop limit wide loops holds (room + 1) stop 0 0 v bytes written
    (by simp) (by simpa using v.isLt) (by omega) (by omega)
  rw [BitVec.shiftLeft_zero] at read
  refine ⟨bytes, written, ?_⟩
  have alone : 0 ||| v = v := BitVec.zero_or
  rwa [alone] at read

/-! ## Values -/

theorem Reads.result {α β : Type} {reader : Reader α} {bytes : List UInt8} {value : α}
    (read : Reads reader bytes value) (f : α → β) :
    Reads (do return f (← reader)) bytes (f value) := by
  rw [← List.append_nil bytes]
  exact read.bind (reads_pure (f value))

theorem reads_memory (host : Endian) (v : BitVec 8) :
    Reads (Reader.read 1) (memory host 1 v) (memory host 1 v) := by
  have read := reads_read (memory host 1 v)
  rwa [length_memory] at read

/-- A string fits its length field. The size of a string is a number of 64 bits. -/
def Value.Writable : Value → Prop
  | stringU16 val => val.length ≤ 65535
  | stringU64 val => val.length < 2 ^ 64
  | _ => True

/-- The count of bytes of an integer of a fixed width, and the number they hold. -/
def Value.fixed : Value → Option (Nat × Nat)
  | int8 val => some (1, val.toBitVec.toNat)
  | int16 val => some (2, val.toBitVec.toNat)
  | int32 val => some (4, val.toBitVec.toNat)
  | int64 val => some (8, val.toBitVec.toNat)
  | uint8 val => some (1, val.toNat)
  | uint16 val => some (2, val.toNat)
  | uint32 val => some (4, val.toNat)
  | uint64 val => some (8, val.toNat)
  | _ => none

theorem byte_round {α : Type} (host : Endian) (val : BitVec 8) (of : BitVec 8 → α) :
    Reads (do return of (ofMemory host 8 (← Reader.read 1))) [memory host 1 val].flatten
      (of val) := by
  have read := (reads_memory host val).result fun bytes => of (ofMemory host 8 bytes)
  have whole := ofMemory_memory host 1 val
  rw [whole] at read
  rwa [List.flatten_singleton]

theorem fixed_round {α : Type} (host endian : Endian) (count : Nat) (val : BitVec (8 * count))
    (of : BitVec (8 * count) → α) :
    ∃ calls, writeFixed host endian count val = .ok calls ∧
      Reads (do return of (← readFixed host endian count (8 * count))) calls.flatten
        (of val) := by
  refine ⟨_, writeFixed_eq host endian count val, ?_⟩
  rw [List.flatten_singleton]
  exact (reads_fixed host endian count val).result of

theorem string_round {α : Type} (host endian : Endian) (count : Nat) (val : List UInt8)
    (fits : val.length < 2 ^ (8 * count)) (of : BitVec (8 * count) → α) (size : α → Nat)
    (sizes : ∀ v, size (of v) = v.toNat) :
    ∃ calls, writeFixed host endian count (BitVec.ofNat (8 * count) val.length) = .ok calls ∧
      Reads ((do return of (← readFixed host endian count (8 * count))) >>= fun length =>
        Reader.read (size length)) (calls ++ [val]).flatten val := by
  rcases fixed_round host endian count (BitVec.ofNat (8 * count) val.length) of
    with ⟨calls, written, read⟩
  refine ⟨calls, written, ?_⟩
  rw [List.flatten_append, List.flatten_singleton]
  apply read.bind
  rw [sizes, toNat_small fits]
  exact reads_read val

theorem varint_round {α : Type} {w stop limit room : Nat} (wide : 8 ≤ w) (loops : w ≤ stop)
    (holds : w ≤ limit) (roomy : 2 ^ w ≤ 128 ^ (room + 1)) (v : BitVec w)
    (of : BitVec w → α) :
    ∃ calls : List (List UInt8),
      (do return [← groups (room + 1) v] : Writes) = .ok calls ∧
      Reads (do return of (← readGroups stop limit stop 0 0)) calls.flatten (of v) := by
  have below := v.isLt
  rcases @groups_round w stop limit room wide loops holds v (by omega)
    with ⟨bytes, written, read⟩
  refine ⟨[bytes], by rw [written]; rfl, ?_⟩
  rw [List.flatten_singleton]
  exact read.result of

theorem value_round (host endian : Endian) (value : Value) (writable : value.Writable) :
    ∃ calls, value.write host endian = .ok calls ∧
      Reads (value.kind.read host endian) calls.flatten value := by
  cases value with
  | int8 val => exact ⟨_, rfl, (byte_round host val.toBitVec Int8.ofBitVec).map Value.int8⟩
  | uint8 val => exact ⟨_, rfl, (byte_round host val.toBitVec UInt8.ofBitVec).map Value.uint8⟩
  | int16 val =>
      rcases fixed_round host endian 2 val.toBitVec Int16.ofBitVec with ⟨calls, written, read⟩
      exact ⟨calls, written, read.map Value.int16⟩
  | int32 val =>
      rcases fixed_round host endian 4 val.toBitVec Int32.ofBitVec with ⟨calls, written, read⟩
      exact ⟨calls, written, read.map Value.int32⟩
  | int64 val =>
      rcases fixed_round host endian 8 val.toBitVec Int64.ofBitVec with ⟨calls, written, read⟩
      exact ⟨calls, written, read.map Value.int64⟩
  | uint16 val =>
      rcases fixed_round host endian 2 val.toBitVec UInt16.ofBitVec with ⟨calls, written, read⟩
      exact ⟨calls, written, read.map Value.uint16⟩
  | uint32 val =>
      rcases fixed_round host endian 4 val.toBitVec UInt32.ofBitVec with ⟨calls, written, read⟩
      exact ⟨calls, written, read.map Value.uint32⟩
  | uint64 val =>
      rcases fixed_round host endian 8 val.toBitVec UInt64.ofBitVec with ⟨calls, written, read⟩
      exact ⟨calls, written, read.map Value.uint64⟩
  | vint32 val =>
      rcases @varint_round _ 32 32 32 4 (by decide) (by decide) (by decide) (by decide)
        (Encode val.toBitVec) (fun v => Int32.ofBitVec (Decode v)) with ⟨calls, written, read⟩
      rw [Decode_Encode (by decide)] at read
      exact ⟨calls, written, read.map Value.vint32⟩
  | vint64 val =>
      rcases @varint_round _ 64 64 64 9 (by decide) (by decide) (by decide) (by decide)
        (Encode val.toBitVec) (fun v => Int64.ofBitVec (Decode v)) with ⟨calls, written, read⟩
      rw [Decode_Encode (by decide)] at read
      exact ⟨calls, written, read.map Value.vint64⟩
  | vuint32 val =>
      rcases @varint_round _ 32 64 32 4 (by decide) (by decide) (by decide) (by decide)
        val.toBitVec UInt32.ofBitVec with ⟨calls, written, read⟩
      exact ⟨calls, written, read.map Value.vuint32⟩
  | stringU16 val =>
      have short : ¬val.length > 65535 := Nat.not_lt.mpr writable
      rcases string_round host endian 2 val (Nat.lt_succ_of_le writable) UInt16.ofBitVec
        UInt16.toNat (fun _ => rfl) with ⟨calls, written, read⟩
      refine ⟨calls ++ [val], ?_, read.map Value.stringU16⟩
      have length : writeUint16 host endian (.ofNat val.length) = .ok calls := written
      simp only [Value.write, writeStringU16, short, ↓reduceIte, length]
      rfl
  | stringU64 val =>
      rcases string_round host endian 8 val writable UInt64.ofBitVec UInt64.toNat (fun _ => rfl)
        with ⟨calls, written, read⟩
      refine ⟨calls ++ [val], ?_, read.map Value.stringU64⟩
      have length : writeUint64 host endian (.ofNat val.length) = .ok calls := written
      simp only [Value.write, writeStringU64, length]
      rfl

theorem values_round (host : Endian) : ∀ items : List (Endian × Value),
    (∀ item ∈ items, item.2.Writable) →
    ∃ calls, writeValues host items = .ok calls ∧
      Reads (readValues host (items.map fun item => (item.1, item.2.kind))) calls.flatten
        (items.map Prod.snd)
  | [], _ => ⟨[], rfl, reads_pure []⟩
  | (endian, value) :: items, writable => by
      rcases value_round host endian value (writable _ List.mem_cons_self)
        with ⟨first, first_written, first_read⟩
      rcases values_round host items fun item member =>
        writable item (List.mem_cons_of_mem _ member) with ⟨rest, rest_written, rest_read⟩
      refine ⟨first ++ rest, by rw [writeValues, first_written, rest_written]; rfl, ?_⟩
      rw [List.flatten_append]
      exact first_read.bind (rest_read.result (value :: ·))

theorem write_fixed (host endian : Endian) {value : Value} {count number : Nat}
    (fixed : value.fixed = some (count, number)) :
    value.write host endian = .ok [endian.arrange (toBytes count number)] := by
  have single : ∀ v : BitVec 8,
      memory host 1 v = endian.arrange (toBytes 1 v.toNat) := by
    intro v
    cases host <;> cases endian <;> rfl
  cases value with
  | int8 val =>
      cases fixed
      rw [← single]
      rfl
  | uint8 val =>
      cases fixed
      exact congrArg (fun bytes => Except.ok [bytes]) (single val.toBitVec)
  | int16 val | int32 val | int64 val | uint16 val | uint32 val | uint64 val =>
      cases fixed
      exact writeFixed_eq host endian _ _
  | vint32 val | vint64 val | vuint32 val | stringU16 val | stringU64 val => cases fixed

/-- The scratch buffers are large enough for every number. -/
theorem write_within (host endian : Endian) (value : Value) :
    value.write host endian ≠ .error .overflow := by
  intro overflow
  by_cases writable : value.Writable
  · rcases value_round host endian value writable with ⟨calls, written, _⟩
    rw [written] at overflow
    cases overflow
  · cases value with
    | stringU16 val =>
        have long : val.length > 65535 := Nat.lt_of_not_le writable
        simp only [Value.write, writeStringU16, long, ↓reduceIte] at overflow
        cases overflow
    | stringU64 val =>
        have length : writeUint64 host endian (.ofNat val.length) = _ :=
          writeFixed_eq host endian 8 _
        simp only [Value.write, writeStringU64, length] at overflow
        cases overflow
    | _ => exact writable trivial

/-- Written values are read back, whatever bytes follow, and these are left. Integers of a
fixed width stand in the selected byte order, and no scratch buffer overflows. -/
theorem values_read_back (host : Endian) (items : List (Endian × Value))
    (writable : ∀ item ∈ items, item.2.Writable) (trailing : List UInt8) :
    (∃ calls, writeValues host items = .ok calls ∧
      readValues host (items.map fun item => (item.1, item.2.kind))
        (calls.flatten ++ trailing) = .ok (items.map Prod.snd, trailing)) ∧
    (∀ endian value count number, Value.fixed value = some (count, number) →
      value.write host endian = .ok [endian.arrange (toBytes count number)]) ∧
    ∀ endian value, Value.write host endian value ≠ .error .overflow := by
  rcases values_round host items writable with ⟨calls, written, read⟩
  exact ⟨⟨calls, written, read trailing⟩, fun endian _ _ _ => write_fixed host endian,
    write_within host⟩

theorem values_read_back_least :
    ∃ calls, writeValues .little [(.big, .int16 (-2)), (.big, .vint32 Int32.minValue)] =
        .ok calls ∧
      readValues .little [(.big, .int16), (.big, .vint32)] (calls.flatten ++ [7]) =
        .ok ([.int16 (-2), .vint32 Int32.minValue], [7]) :=
  (values_read_back .little [(.big, .int16 (-2)), (.big, .vint32 Int32.minValue)]
    (by simp [Value.Writable]) [7]).1

end FiberNet
