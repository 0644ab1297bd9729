import FiberNet.Bytes.CodecRoundTrip
import Mathlib.Data.Nat.Digits.Defs

/-! # Integers of seven bits a byte, on their own

The scratch buffer of `writeVuint64` is too small for the larger numbers. The readers check
that a byte is allowed to be followed by another one, not that the last one fits.
-/

namespace FiberNet

/-! ## Writing 64 bits -/

theorem groups_overflow {w room : Nat} (wide : 8 ≤ w) {v : BitVec w}
    (large : 128 ^ room ≤ v.toNat) : groups room v = .error .overflow := by
  induction room generalizing v with
  | zero => rfl
  | succ room ih =>
      have continues : v ≥ 0x80 := by
        rw [continues_iff wide]
        have positive := Nat.pow_pos (n := room) (show 0 < 128 by decide)
        rw [Nat.pow_succ] at large
        omega
      have rest : 128 ^ room ≤ (v >>> 7).toNat := by
        rw [toNat_shift, Nat.le_div_iff_mul_le (by decide)]
        exact large
      rw [groups, if_pos continues, ih rest]
      rfl

theorem length_groups {w room : Nat} {v : BitVec w} {bytes : List UInt8}
    (written : groups room v = .ok bytes) : 1 ≤ bytes.length ∧ bytes.length ≤ room := by
  induction room generalizing v bytes with
  | zero => cases written
  | succ room ih =>
      rw [groups] at written
      split at written
      · cases following : groups room (v >>> 7) with
        | error failure =>
            rw [following] at written
            cases written
        | ok rest =>
            have length := ih following
            rw [following] at written
            cases written
            rw [List.length_cons]
            omega
      · cases written
        rw [List.length_singleton]
        omega

/-- The number is written in at most ten bytes, inside the scratch buffer, and is read back
from them. -/
def VarintKept (v : UInt64) : Prop :=
  ∃ bytes, writeVuint64 v = .ok [bytes] ∧ 1 ≤ bytes.length ∧ bytes.length ≤ 10 ∧
    Reads readVuint64 bytes v

/-- The string comes back as it was. -/
def StringKept (val : List UInt8) : Prop :=
  ∃ calls, writeStringV64 val = .ok calls ∧ Reads readStringV64 calls.flatten val

theorem writeVuint64_overflow {v : UInt64} (large : 2 ^ 35 ≤ v.toNat) :
    writeVuint64 v = .error .overflow := by
  rw [writeVuint64, groups_overflow (by decide) large]
  rfl

theorem varintKept_of_lt {v : UInt64} (small : v.toNat < 2 ^ 35) : VarintKept v := by
  rcases @groups_round 64 64 64 4 (by decide) (by decide) (by decide) v.toBitVec small
    with ⟨bytes, written, read⟩
  have length := length_groups written
  refine ⟨bytes, ?_, length.1, by omega, read.result UInt64.ofBitVec⟩
  rw [writeVuint64, written]
  rfl

theorem varintKept_iff (v : UInt64) : VarintKept v ↔ v.toNat < 2 ^ 35 := by
  constructor
  · rintro ⟨bytes, written, _⟩
    apply Nat.lt_of_not_le
    intro large
    rw [writeVuint64_overflow large] at written
    cases written
  · exact varintKept_of_lt

theorem writeStringV64_eq {val bytes : List UInt8}
    (written : writeVuint64 (.ofNat val.length) = .ok [bytes]) :
    writeStringV64 val = .ok [bytes, val] := by
  rw [writeStringV64, written]
  rfl

/-- A length of more than 64 bits is cut, and so is the string. -/
theorem stringKept_iff (val : List UInt8) : StringKept val ↔ val.length < 2 ^ 35 := by
  have number : (UInt64.ofNat val.length).toNat = val.length % 2 ^ 64 := UInt64.toNat_ofNat'
  constructor
  · rintro ⟨calls, written, read⟩
    rcases Nat.lt_or_ge (val.length % 2 ^ 64) (2 ^ 35) with small | large
    · rcases varintKept_of_lt (number ▸ small) with ⟨bytes, length, _, _, length_read⟩
      rw [writeStringV64_eq length] at written
      cases written
      have whole := read []
      rw [List.flatten_cons, List.flatten_singleton, List.append_assoc, readStringV64,
        length_read.followed, List.append_nil, number, Reader.read,
        if_neg (Nat.not_lt.mpr (Nat.mod_le _ _))] at whole
      have rest : val.drop (val.length % 2 ^ 64) = [] :=
        congrArg Prod.snd (Except.ok.inj whole)
      rw [List.drop_eq_nil_iff] at rest
      omega
    · rw [writeStringV64, writeVuint64_overflow (number ▸ large)] at written
      cases written
  · intro small
    have below : val.length % 2 ^ 64 = val.length := Nat.mod_eq_of_lt (by omega)
    rw [below] at number
    rcases varintKept_of_lt (number ▸ small) with ⟨bytes, length, _, _, length_read⟩
    refine ⟨_, writeStringV64_eq length, ?_⟩
    rw [List.flatten_cons, List.flatten_singleton]
    apply length_read.bind
    rw [number]
    exact reads_read val

/-- Exactly the numbers of at most five groups are kept, and the strings of such a length. -/
theorem vuint64_kept_iff (v : UInt64) (val : List UInt8) :
    (VarintKept v ↔ v.toNat < 2 ^ 35) ∧ (StringKept val ↔ val.length < 2 ^ 35) :=
  ⟨varintKept_iff v, stringKept_iff val⟩

/-- The sixth group of the least number that has one is stored behind the buffer. -/
theorem not_varintKept : ¬∀ v, VarintKept v := by
  intro kept
  rcases kept (2 ^ 35) with ⟨bytes, written, _⟩
  rw [writeVuint64_overflow (by decide)] at written
  cases written

/-! ## Reading -/

/-- The number that groups of seven bits mean. -/
def groupSum (bytes : List UInt8) : Nat :=
  Nat.ofDigits 128 (bytes.map fun byte => byte.toNat % 128)

/-- Signed numbers in the order 0, -1, 1, -2, 2. -/
def zigzag (number : Nat) : Int :=
  if number % 2 = 0 then (number / 2 : Nat) else -((number / 2 : Nat) + 1 : Int)

/-- The bytes of one number: every byte but the last says that another one follows. -/
structure Encoded (front : List UInt8) (last : UInt8) : Prop where
  continued : ∀ byte ∈ front, 128 ≤ byte.toNat
  ended : last.toNat < 128

/-- The reader throws, or returns what the bytes that it consumes mean, as long as that is
a number of `w` bits. -/
def Exact {α : Type} (w : Nat) (reader : Reader α) (means : α → Nat → Prop)
    (data : List UInt8) : Prop :=
  ∀ value rest, reader data = .ok (value, rest) → ∃ front last,
    data = front ++ last :: rest ∧ Encoded front last ∧
      groupSum (front ++ [last]) < 2 ^ w ∧ means value (groupSum (front ++ [last]))

/-- The last group that a number of `w` bits has room for is there, with bits that it has
no room for. -/
def Truncates (w : Nat) (data : List UInt8) : Prop :=
  ∃ front last rest, data = front ++ last :: rest ∧ Encoded front last ∧
    front.length = w / 7 ∧ 2 ^ (w % 7) ≤ last.toNat

theorem groupSum_cons (byte : UInt8) (bytes : List UInt8) :
    groupSum (byte :: bytes) = byte.toNat % 128 + 128 * groupSum bytes :=
  Nat.ofDigits_cons

theorem groupSum_lt (bytes : List UInt8) : groupSum bytes < 128 ^ bytes.length := by
  have below := @Nat.ofDigits_lt_base_pow_length 128
    (bytes.map fun byte => byte.toNat % 128) (by decide) (by
      intro digit member
      rcases List.mem_map.mp member with ⟨byte, _, rfl⟩
      exact Nat.mod_lt _ (by decide))
  rwa [List.length_map] at below

theorem groupSum_append_singleton (front : List UInt8) {last : UInt8} (ended : last.toNat < 128) :
    groupSum (front ++ [last]) = groupSum front + 128 ^ front.length * last.toNat := by
  rw [groupSum, List.map_append, Nat.ofDigits_append, List.length_map, List.map_singleton,
    Nat.ofDigits_singleton, Nat.mod_eq_of_lt ended, groupSum]

/-- Which numbers are of more than `w` bits, of those the loop gets to the end of. -/
theorem groupSum_lt_iff {w : Nat} {front : List UInt8} {last : UInt8}
    (ended : last.toNat < 128) (within : 7 * front.length < w) :
    groupSum (front ++ [last]) < 2 ^ w ↔
      ¬(front.length = w / 7 ∧ 2 ^ (w % 7) ≤ last.toNat) := by
  have low := groupSum_lt front
  have base : (128 : Nat) = 2 ^ 7 := rfl
  have parts : 2 ^ w = 128 ^ (w / 7) * 2 ^ (w % 7) := by
    rw [base, ← Nat.pow_mul, ← Nat.pow_add, Nat.div_add_mod]
  have upper : groupSum (front ++ [last]) < 128 ^ front.length * (last.toNat + 1) := by
    rw [groupSum_append_singleton front ended, Nat.mul_succ]
    omega
  constructor
  · rintro below ⟨full, large⟩
    have scaled := Nat.mul_le_mul_left (128 ^ (w / 7)) large
    rw [groupSum_append_singleton front ended, full] at below
    omega
  · intro fits
    apply Nat.lt_of_lt_of_le upper
    rw [parts]
    by_cases full : front.length = w / 7
    · rw [full]
      apply Nat.mul_le_mul_left
      exact Nat.lt_of_not_le fun large => fits ⟨full, large⟩
    · have further : 128 ^ (front.length + 1) ≤ 128 ^ (w / 7) :=
        Nat.pow_le_pow_right (by decide) (by omega)
      have one : 128 ^ (w / 7) * 1 ≤ 128 ^ (w / 7) * 2 ^ (w % 7) :=
        Nat.mul_le_mul_left _ Nat.one_le_two_pow
      have last_le := Nat.mul_le_mul_left (128 ^ front.length) (Nat.succ_le_of_lt ended)
      rw [Nat.pow_succ] at further
      simp only [Nat.succ_eq_add_one] at last_le
      omega

theorem readGroups_nil {w stop limit turns i : Nat} {v : BitVec w} (inside : i < stop) :
    readGroups stop limit (turns + 1) i v [] = .error .outOfRange := by
  rw [readGroups, if_pos inside]
  rfl

theorem readGroups_cons {w stop limit turns i : Nat} {v : BitVec w} {byte : UInt8}
    {data : List UInt8} (inside : i < stop) :
    readGroups stop limit (turns + 1) i v (byte :: data) =
      if 128 ≤ byte.toNat then
        if limit < i + 7 then .error .logicError
        else readGroups stop limit turns (i + 7)
          (v ||| BitVec.ofNat w (byte.toNat % 128) <<< i) data
      else .ok (v ||| BitVec.ofNat w byte.toNat <<< i, data) := by
  have low : byte.toNat &&& 127 = byte.toNat % 128 :=
    Nat.and_two_pow_sub_one_eq_mod byte.toNat 7
  rw [readGroups, if_pos inside]
  refine ((reads_read [byte]).followed _ data).trans ?_
  by_cases continued : 128 ≤ byte.toNat
  · by_cases beyond : limit < i + 7
    · simp only [ofBytes, Nat.mul_zero, Nat.add_zero, low, ge_iff_le, gt_iff_lt, continued,
        beyond, ↓reduceIte]
      rfl
    · simp only [ofBytes, Nat.mul_zero, Nat.add_zero, low, ge_iff_le, gt_iff_lt, continued,
        beyond, ↓reduceIte]
  · simp only [ofBytes, Nat.mul_zero, Nat.add_zero, ge_iff_le, continued, ↓reduceIte]
    rfl

theorem or_shift {w i : Nat} {v : BitVec w} (below : v.toNat < 2 ^ i) (x : Nat) :
    v ||| BitVec.ofNat w x <<< i = BitVec.ofNat w (v.toNat + x * 2 ^ i) := by
  have sum := Nat.two_pow_add_eq_or_of_lt below x
  have value : v.toNat + x * 2 ^ i = v.toNat ||| x <<< i := by
    rw [Nat.shiftLeft_eq, Nat.mul_comm x, Nat.or_comm, ← sum, Nat.add_comm]
  rw [value, BitVec.ofNat_or, BitVec.ofNat_toNat, BitVec.setWidth_eq]
  congr 1
  apply BitVec.eq_of_toNat_eq
  rw [BitVec.toNat_shiftLeft, BitVec.toNat_ofNat, BitVec.toNat_ofNat, Nat.shiftLeft_eq,
    Nat.shiftLeft_eq, Nat.mod_mul_mod]

/-- What a loop that returns has consumed. The last byte is none of those it refuses. -/
theorem readGroups_ok {w stop turns i : Nat} {v value : BitVec w} {data rest : List UInt8}
    (loops : w ≤ stop) (aligned : i % 7 = 0) (short : w % 7 ≠ 0) (inside : i < w)
    (enough : stop ≤ i + 7 * turns)
    (returned : readGroups stop w turns i v data = .ok (value, rest)) :
    ∃ front last, data = front ++ last :: rest ∧ Encoded front last ∧
      i + 7 * front.length < w := by
  induction turns generalizing i v data with
  | zero => omega
  | succ turns ih =>
      cases data with
      | nil =>
          rw [readGroups_nil (by omega)] at returned
          cases returned
      | cons byte data =>
          rw [readGroups_cons (by omega)] at returned
          split at returned
          · rename_i continued
            split at returned
            · cases returned
            · rcases ih (by omega) (by omega) (by omega) returned
                with ⟨front, last, rfl, encoded, within⟩
              refine ⟨byte :: front, last, rfl, ⟨?_, encoded.ended⟩, ?_⟩
              · intro other member
                rcases List.mem_cons.mp member with rfl | further
                · exact continued
                · exact encoded.continued other further
              · rw [List.length_cons]
                omega
          · rename_i ended
            cases returned
            exact ⟨[], byte, rfl, ⟨fun _ member => absurd member List.not_mem_nil, by omega⟩,
              inside⟩

/-- What the loop returns for the bytes of one number: its low bits. -/
theorem readGroups_reads {w stop turns i : Nat} {v : BitVec w} {front : List UInt8}
    {last : UInt8} (loops : w ≤ stop) (below : v.toNat < 2 ^ i)
    (encoded : Encoded front last) (within : i + 7 * front.length < w)
    (enough : front.length < turns) :
    Reads (readGroups stop w turns i v) (front ++ [last])
      (BitVec.ofNat w (v.toNat + groupSum (front ++ [last]) * 2 ^ i)) := by
  induction front generalizing turns i v with
  | nil =>
      cases turns with
      | zero => omega
      | succ turns =>
          have alone : groupSum [last] = last.toNat := by
            rw [groupSum_cons, Nat.mod_eq_of_lt encoded.ended]
            rfl
          have read := @readGroups_last w stop w turns i v last (by omega) encoded.ended
          rw [or_shift below] at read
          rwa [List.nil_append, alone]
  | cons byte front ih =>
      cases turns with
      | zero => omega
      | succ turns =>
          rw [List.length_cons] at within enough
          have digit : byte.toNat % 128 < 128 := Nat.mod_lt _ (by decide)
          have scaled := Nat.mul_le_mul_right (2 ^ i) (Nat.le_of_lt_succ digit)
          have power : 2 ^ (i + 7) = 2 ^ i * 128 := Nat.pow_add 2 i 7
          have bound : v.toNat + byte.toNat % 128 * 2 ^ i < 2 ^ (i + 7) := by omega
          have room : 2 ^ (i + 7) ≤ 2 ^ w := Nat.pow_le_pow_right (by decide) (by omega)
          have whole : v.toNat + byte.toNat % 128 * 2 ^ i +
              groupSum (front ++ [last]) * 2 ^ (i + 7) =
              v.toNat + groupSum (byte :: front ++ [last]) * 2 ^ i := by
            rw [List.cons_append, groupSum_cons, power]
            ring
          have value := toNat_small (Nat.lt_of_lt_of_le bound room)
          have read := @ih turns (i + 7)
            (BitVec.ofNat w (v.toNat + byte.toNat % 128 * 2 ^ i)) (by rwa [value])
            ⟨fun other member => encoded.continued other (List.mem_cons_of_mem _ member),
              encoded.ended⟩ (by omega) (by omega)
          rw [value, whole] at read
          apply readGroups_continued (by omega) (encoded.continued byte List.mem_cons_self)
            (by omega)
          rwa [or_shift below]

theorem Reader.bind_ok_iff {α β : Type} {reader : Reader α} {next : α → Reader β} {value : β}
    {data rest : List UInt8} :
    (reader >>= next) data = .ok (value, rest) ↔
      ∃ middle left, reader data = .ok (middle, left) ∧ next middle left = .ok (value, rest) := by
  cases first : reader data with
  | error failure =>
      simp only [Bind.bind, StateT.bind, first, Except.bind, reduceCtorEq, false_and,
        exists_false]
  | ok result =>
      simp only [Bind.bind, StateT.bind, first, Except.bind]
      constructor
      · intro later
        exact ⟨_, _, rfl, later⟩
      · rintro ⟨middle, left, same, later⟩
        cases same
        exact later

/-- A loop from the start returns the low bits of what it consumes. -/
theorem readGroups_iff {w stop turns : Nat} {number : BitVec w} {data rest : List UInt8}
    (loops : w ≤ stop) (short : w % 7 ≠ 0) (enough : stop ≤ 7 * turns) :
    readGroups stop w turns 0 0 data = .ok (number, rest) ↔
      ∃ front last, data = front ++ last :: rest ∧ Encoded front last ∧
        7 * front.length < w ∧ number = BitVec.ofNat w (groupSum (front ++ [last])) := by
  have reads : ∀ {front : List UInt8} {last : UInt8}, Encoded front last →
      7 * front.length < w → Reads (readGroups stop w turns 0 (0 : BitVec w))
        (front ++ [last]) (BitVec.ofNat w (groupSum (front ++ [last]))) := by
    intro front last encoded within
    have read := @readGroups_reads w stop turns 0 0 front last loops (by simp) encoded
      (by omega) (by omega)
    simpa using read
  constructor
  · intro returned
    rcases readGroups_ok loops (by omega) short (by omega) (by omega) returned
      with ⟨front, last, rfl, encoded, within⟩
    rw [Nat.zero_add] at within
    have same := reads encoded within rest
    rw [List.append_assoc, List.singleton_append, returned] at same
    exact ⟨front, last, rfl, encoded, within, congrArg Prod.fst (Except.ok.inj same)⟩
  · rintro ⟨front, last, rfl, encoded, within, rfl⟩
    have returned := reads encoded within rest
    rwa [List.append_assoc, List.singleton_append] at returned

/-- The loop of one of the readers is exact if and only if its last group fits. -/
theorem exact_iff {α : Type} {w stop turns : Nat} {of : BitVec w → α}
    {means : α → Nat → Prop} (short : w % 7 ≠ 0) (loops : w ≤ stop)
    (enough : stop ≤ 7 * turns)
    (meaning : ∀ number < 2 ^ w, means (of (BitVec.ofNat w number)) number)
    (data : List UInt8) :
    Exact w (do return of (← readGroups stop w turns 0 0)) means data ↔ ¬Truncates w data := by
  constructor
  · rintro kept ⟨front, last, rest, rfl, encoded, full, large⟩
    have within : 7 * front.length < w := by omega
    have looped := (@readGroups_iff w stop turns _ _ rest loops short enough).mpr
      ⟨front, last, rfl, encoded, within, rfl⟩
    rcases kept _ rest (Reader.bind_ok_iff.mpr ⟨_, rest, looped, rfl⟩)
      with ⟨front', last', same, _, below, _⟩
    have parts : front ++ [last] = front' ++ [last'] := by
      apply (List.append_left_inj rest).mp
      rwa [List.append_assoc, List.append_assoc]
    rw [← parts, groupSum_lt_iff encoded.ended within] at below
    exact below ⟨full, large⟩
  · intro fits value rest returned
    rcases Reader.bind_ok_iff.mp returned with ⟨number, left, looped, ended⟩
    cases ended
    rcases (readGroups_iff loops short enough).mp looped
      with ⟨front, last, rfl, encoded, within, rfl⟩
    have below : groupSum (front ++ [last]) < 2 ^ w := by
      rw [groupSum_lt_iff encoded.ended within]
      rintro ⟨full, large⟩
      exact fits ⟨front, last, rest, rfl, encoded, full, large⟩
    exact ⟨front, last, rfl, encoded, below, meaning _ below⟩

theorem toInt_Decode {w number : Nat} (wide : 1 < w) (fits : number < 2 ^ w) :
    (Decode (BitVec.ofNat w number)).toInt = zigzag number := by
  have small := toNat_small fits
  have half : 2 ^ w = 2 * 2 ^ (w - 1) := by
    rw [← Nat.pow_succ']
    congr 1
    omega
  have shifted : (BitVec.ofNat w number >>> 1).toNat = number / 2 := by
    rw [BitVec.toNat_ushiftRight, small, Nat.shiftRight_eq_div_pow]
  unfold zigzag
  split
  · rename_i even
    rw [Decode_even wide (by rwa [small]), BitVec.toInt_eq_toNat_of_lt (by omega), shifted]
  · rename_i odd
    rw [Decode_odd wide (by omega), BitVec.toInt_eq_toNat_cond, BitVec.toNat_not, shifted,
      if_neg (by omega)]
    omega

/-- The readers are exact unless the last group they allow has too many bits. -/
theorem readers_exact_iff (data : List UInt8) :
    (Exact 32 readVint32 (fun value number => value.toInt = zigzag number) data ↔
      ¬Truncates 32 data) ∧
    (Exact 64 readVint64 (fun value number => value.toInt = zigzag number) data ↔
      ¬Truncates 64 data) ∧
    (Exact 32 readVuint32 (fun value number => value.toNat = number) data ↔
      ¬Truncates 32 data) ∧
    (Exact 64 readVuint64 (fun value number => value.toNat = number) data ↔
      ¬Truncates 64 data) := by
  refine ⟨?_, ?_, ?_, ?_⟩
  · apply @exact_iff Int32 32 32 32 (fun v => Int32.ofBitVec (Decode v)) _ (by decide)
      (by decide) (by decide)
    intro number below
    exact toInt_Decode (by decide) below
  · apply @exact_iff Int64 64 64 64 (fun v => Int64.ofBitVec (Decode v)) _ (by decide)
      (by decide) (by decide)
    intro number below
    exact toInt_Decode (by decide) below
  · apply exact_iff (by decide) (by decide) (by decide)
    intro number below
    exact toNat_small below
  · apply exact_iff (by decide) (by decide) (by decide)
    intro number below
    exact toNat_small below

/-- The one bit of the number 2 to the 32 is dropped. -/
theorem not_exact_readVuint32 :
    ¬∀ data, Exact 32 readVuint32 (fun value number => value.toNat = number) data := by
  intro kept
  rcases kept [128, 128, 128, 128, 16] 0 [] (by decide) with ⟨front, last, same, _, _, value⟩
  rw [← same] at value
  exact absurd value (by decide)

end FiberNet
