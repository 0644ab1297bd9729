import FiberNet.Bytes.ByteArray
import FiberNet.Foundation.Bits

/-! # Base64

`base64Encode` and `base64Decode` copy from a pair of Boost iterators. The padding that the
one appends is decoded by the other like everything else.
-/

namespace FiberNet

namespace Crypto

/-! ## Definitions -/

/-- "ABC..Zabc..z0123456789+/" -/
def alphabet : List UInt8 :=
  (List.range' 65 26 ++ List.range' 97 26 ++ List.range' 48 10 ++ [43, 47]).map UInt8.ofNat

/-- The six bits that a character stands for. -/
def sextetOf (c : UInt8) : Option Nat :=
  if c = 61 then some 0 else alphabet.idxOf? c

/-- The two iterators: what is copied from a range of bytes, and from a range of characters
unless an exception is thrown. -/
structure Boost where
  fromBinary : List UInt8 → List UInt8
  toBinary : List UInt8 → Option (List UInt8)

/-- The bits of bytes, and of numbers of six bits. -/
def octetBits (bytes : List UInt8) : List Bool :=
  stream 8 (bytes.map UInt8.toNat)

/-- The first iterator regroups bits from eight to six and fills the last group with zeros;
the second one regroups them back and discards an incomplete byte. -/
structure Boost.Documented (boost : Boost) : Prop where
  fromBinary : ∀ bytes, ∃ sextets filled, boost.fromBinary bytes =
      sextets.map (fun number => alphabet.getD number 0) ∧
    (∀ number ∈ sextets, number < 64) ∧ filled < 6 ∧
    stream 6 sextets = octetBits bytes ++ List.replicate filled false
  toBinary : ∀ chars sextets, chars.map sextetOf = sextets.map some →
    ∃ bytes rest, boost.toBinary chars = some bytes ∧ rest.length < 8 ∧
      stream 6 sextets = octetBits bytes ++ rest

/-- `std::strlen`. It reads behind what is in memory if no byte is zero. -/
def strlen (memory : List UInt8) : Except Failure Nat :=
  match memory.findIdx? (· = 0) with
  | some length => .ok length
  | none => .error .overflow

/-- `buf` points to the bytes in memory from there on, unless it is null. -/
def base64Encode (boost : Boost) (buf : Option (List UInt8)) (buflen : Nat) :
    Except Failure (List UInt8) :=
  match buf with
  | none => .error .logicError
  | some memory => do
      let buflen ← if buflen = 0 then strlen memory else .ok buflen
      let equal_count := (3 - buflen % 3) % 3
      return boost.fromBinary (memory.take buflen) ++ List.replicate equal_count 61

def base64Decode (boost : Boost) (buf : Option (List UInt8)) (buflen : Nat) :
    Except Failure (List UInt8) :=
  match buf with
  | none => .error .logicError
  | some memory => do
      let buflen ← if buflen = 0 then strlen memory else .ok buflen
      return (boost.toBinary (memory.take buflen)).getD []

/-- A string in memory, with `behind` after it, is encoded, and the code is decoded to it. -/
def Base64Kept (boost : Boost) (str behind : List UInt8) : Prop :=
  ∃ code, base64Encode boost (some (str ++ behind)) str.length = .ok code ∧
    base64Decode boost (some (code ++ [0])) code.length = .ok str

/-! ## What the code of a string is decoded to -/

theorem sextetOf_alphabet : ∀ number < 64, sextetOf (alphabet.getD number 0) = some number := by
  decide

theorem sextetOf_padding : sextetOf 61 = some 0 := rfl

/-- As many zeros as there is padding. -/
def padded (bytes : List UInt8) : List UInt8 :=
  bytes ++ List.replicate ((3 - bytes.length % 3) % 3) 0

theorem octetBits_append (left right : List UInt8) :
    octetBits (left ++ right) = octetBits left ++ octetBits right := by
  rw [octetBits, List.map_append, stream_append]
  rfl

theorem length_octetBits (bytes : List UInt8) : (octetBits bytes).length = 8 * bytes.length := by
  rw [octetBits, length_stream, List.length_map]

theorem octetBits_inj {left right : List UInt8} {leftRest rightRest : List Bool}
    (lengths : left.length = right.length)
    (same : octetBits left ++ leftRest = octetBits right ++ rightRest) : left = right := by
  have fits : ∀ bytes : List UInt8, ∀ number ∈ bytes.map UInt8.toNat, number < 2 ^ 8 := by
    intro bytes number member
    rcases List.mem_map.mp member with ⟨byte, _, rfl⟩
    exact byte.toNat_lt
  have numbers := stream_inj (fits left) (fits right)
    (by rw [List.length_map, List.length_map, lengths]) same
  exact List.map_injective_iff.mpr (fun _ _ => UInt8.toNat_inj.mp) numbers

theorem octetBits_padded (bytes : List UInt8) :
    octetBits (padded bytes) = octetBits bytes ++
      List.replicate (8 * ((3 - bytes.length % 3) % 3)) false := by
  rw [padded, octetBits_append]
  congr 1
  rw [octetBits, List.map_replicate]
  exact stream_zeros 8 _

/-- The code of some bytes, and what is made of it. -/
theorem toBinary_fromBinary {boost : Boost} (documented : boost.Documented)
    (bytes : List UInt8) :
    boost.toBinary (boost.fromBinary bytes ++
        List.replicate ((3 - bytes.length % 3) % 3) 61) = some (padded bytes) ∧
      (boost.fromBinary bytes = [] ↔ bytes = []) := by
  rcases documented.fromBinary bytes with ⟨sextets, filled, chars, small, few, groups⟩
  have lengths := congrArg List.length groups
  rw [length_stream, List.length_append, length_octetBits, List.length_replicate] at lengths
  generalize padding : (3 - bytes.length % 3) % 3 = count
  have whole : filled + 6 * count = 8 * count := by omega
  have values : (boost.fromBinary bytes ++ List.replicate count 61).map sextetOf =
      (sextets ++ List.replicate count 0).map some := by
    rw [chars, List.map_append, List.map_append, List.map_map, List.map_replicate,
      List.map_replicate, sextetOf_padding]
    congr 1
    apply List.map_congr_left
    intro number member
    exact sextetOf_alphabet number (small number member)
  rcases documented.toBinary _ _ values with ⟨decoded, rest, returned, incomplete, regrouped⟩
  have same : octetBits (padded bytes) ++ [] = octetBits decoded ++ rest := by
    rw [← regrouped, stream_append, groups, stream_zeros, List.append_assoc,
      List.replicate_append_replicate, whole, octetBits_padded, padding, List.append_nil]
  have counts := congrArg List.length same
  rw [List.length_append, List.length_append, length_octetBits, length_octetBits,
    List.length_nil] at counts
  constructor
  · rw [returned, octetBits_inj (by omega) same]
  · rw [chars, List.map_eq_nil_iff]
    constructor
    · rintro rfl
      rw [List.length_nil] at lengths
      exact List.length_eq_zero_iff.mp (by omega)
    · rintro rfl
      rw [List.length_nil] at lengths
      exact List.length_eq_zero_iff.mp (by omega)

/-! ## When the string comes back -/

theorem strlen_cons (memory : List UInt8) : strlen (0 :: memory) = .ok 0 := rfl

/-- What is encoded for a string: the string, or for the empty one what `strlen` finds. -/
theorem base64Encode_eq (boost : Boost) (str behind : List UInt8) :
    base64Encode boost (some (str ++ behind)) str.length =
      if str = [] then (strlen behind).map fun length =>
        boost.fromBinary (behind.take length) ++ List.replicate ((3 - length % 3) % 3) 61
      else .ok (boost.fromBinary str ++ List.replicate ((3 - str.length % 3) % 3) 61) := by
  unfold base64Encode
  by_cases empty : str = []
  · subst empty
    simp only [List.length_nil, List.nil_append, ↓reduceIte]
    cases strlen behind <;> rfl
  · have nonzero : str.length ≠ 0 := by simpa using empty
    simp only [nonzero, empty, ↓reduceIte]
    change Except.ok (boost.fromBinary ((str ++ behind).take str.length) ++ _) = _
    rw [List.take_left]

theorem base64Decode_eq {boost : Boost} (documented : boost.Documented) (bytes : List UInt8) :
    base64Decode boost (some (boost.fromBinary bytes ++
        List.replicate ((3 - bytes.length % 3) % 3) 61 ++ [0]))
      (boost.fromBinary bytes ++ List.replicate ((3 - bytes.length % 3) % 3) 61).length =
      .ok (padded bytes) := by
  rcases toBinary_fromBinary documented bytes with ⟨decoded, empty⟩
  generalize code_eq : boost.fromBinary bytes ++
    List.replicate ((3 - bytes.length % 3) % 3) 61 = code at decoded ⊢
  unfold base64Decode
  by_cases none : code = []
  · subst none
    simp only [List.length_nil, List.nil_append, ↓reduceIte, strlen_cons]
    change Except.ok ((boost.toBinary []).getD []) = _
    rw [decoded]
    rfl
  · have nonzero : code.length ≠ 0 := by simpa using none
    simp only [nonzero, ↓reduceIte]
    change Except.ok ((boost.toBinary ((code ++ [0]).take code.length)).getD []) = _
    rw [List.take_left, decoded]
    rfl

theorem padded_eq_iff (str : List UInt8) : padded str = str ↔ str.length % 3 = 0 := by
  constructor
  · intro same
    have lengths := congrArg List.length same
    rw [padded, List.length_append, List.length_replicate] at lengths
    omega
  · intro aligned
    have none : (3 - str.length % 3) % 3 = 0 := by omega
    rw [padded, none, List.replicate_zero, List.append_nil]

theorem padded_eq_nil_iff (bytes : List UInt8) : padded bytes = [] ↔ bytes = [] := by
  constructor
  · intro none
    exact (List.append_eq_nil_iff.mp none).1
  · rintro rfl
    rfl

theorem strlen_ok {memory : List UInt8} {length : Nat} (found : strlen memory = .ok length) :
    length < memory.length ∧ (length = 0 ↔ memory.head? = some 0) := by
  unfold strlen at found
  split at found
  · rename_i index first
    cases found
    rcases List.findIdx?_eq_some_iff_getElem.mp first with ⟨inside, zero, before⟩
    refine ⟨inside, ?_⟩
    cases memory with
    | nil => cases inside
    | cons head memory =>
        rw [List.head?_cons, Option.some.injEq]
        constructor
        · rintro rfl
          simpa using zero
        · rintro rfl
          apply Nat.eq_zero_of_not_pos
          intro later
          exact before 0 later (decide_eq_true rfl)
  · cases found

/-- The string comes back if and only if its code has no padding. The empty one has to be
followed by a zero in memory. -/
theorem base64_iff {boost : Boost} (documented : boost.Documented) (str behind : List UInt8) :
    Base64Kept boost str behind ↔
      str.length % 3 = 0 ∧ (str ≠ [] ∨ behind.head? = some 0) := by
  unfold Base64Kept
  rw [base64Encode_eq]
  by_cases empty : str = []
  · subst empty
    rw [if_pos rfl]
    cases found : strlen behind with
    | error failure =>
        constructor
        · rintro ⟨code, encoded, _⟩
          cases encoded
        · rintro ⟨_, nonempty | zero⟩
          · exact absurd rfl nonempty
          · rcases List.head?_eq_some_iff.mp zero with ⟨rest, rfl⟩
            cases found
    | ok length =>
        rcases strlen_ok found with ⟨inside, none⟩
        have taken : (behind.take length).length = length := by
          rw [List.length_take]
          omega
        have decoded := base64Decode_eq documented (behind.take length)
        rw [taken] at decoded
        have back : padded (behind.take length) = [] ↔ length = 0 := by
          rw [padded_eq_nil_iff, List.take_eq_nil_iff]
          constructor
          · rintro (zero | nothing)
            · exact zero
            · rw [nothing] at inside
              cases inside
          · exact .inl
        constructor
        · rintro ⟨code, encoded, kept⟩
          cases encoded
          rw [decoded] at kept
          exact ⟨rfl, .inr (none.mp (back.mp (Except.ok.inj kept)))⟩
        · rintro ⟨_, nonempty | zero⟩
          · exact absurd rfl nonempty
          · refine ⟨_, rfl, ?_⟩
            rw [decoded, back.mpr (none.mpr zero)]
  · rw [if_neg empty]
    have decoded := base64Decode_eq documented str
    constructor
    · rintro ⟨code, encoded, kept⟩
      cases encoded
      rw [decoded] at kept
      exact ⟨(padded_eq_iff str).mp (Except.ok.inj kept), .inl empty⟩
    · rintro ⟨aligned, _⟩
      refine ⟨_, rfl, ?_⟩
      rw [decoded, (padded_eq_iff str).mpr aligned]

/-! ## The iterators in steps of three bytes -/

def sextets : List UInt8 → List Nat
  | a :: b :: c :: bytes =>
      [a.toNat / 4, a.toNat % 4 * 16 + b.toNat / 16, b.toNat % 16 * 4 + c.toNat / 64,
        c.toNat % 64] ++ sextets bytes
  | [a, b] => [a.toNat / 4, a.toNat % 4 * 16 + b.toNat / 16, b.toNat % 16 * 4]
  | [a] => [a.toNat / 4, a.toNat % 4 * 16]
  | [] => []

def octets : List Nat → List UInt8
  | v :: w :: x :: y :: numbers =>
      [.ofNat (v * 4 + w / 16), .ofNat (w % 16 * 16 + x / 4), .ofNat (x % 4 * 64 + y)] ++
        octets numbers
  | [v, w, x] => [.ofNat (v * 4 + w / 16), .ofNat (w % 16 * 16 + x / 4)]
  | [v, w] => [.ofNat (v * 4 + w / 16)]
  | _ => []

def inSteps : Boost where
  fromBinary := fun bytes => (sextets bytes).map fun number => alphabet.getD number 0
  toBinary := fun chars => (chars.mapM sextetOf).map octets

theorem octetBits_cons (byte : UInt8) (bytes : List UInt8) :
    octetBits (byte :: bytes) = bits 8 byte.toNat ++ octetBits bytes := rfl

/-- The second group of six bits, and the third. -/
theorem bits_two_four (left : Nat) {right : Nat} (fits : right < 16) :
    bits 6 (left * 16 + right) = bits 2 left ++ bits 4 right :=
  @bits_join 2 4 left right fits

theorem bits_four_two (left : Nat) {right : Nat} (fits : right < 4) :
    bits 6 (left * 4 + right) = bits 4 left ++ bits 2 right :=
  @bits_join 4 2 left right fits

theorem stream_sextets (bytes : List UInt8) :
    (∀ number ∈ sextets bytes, number < 64) ∧ ∃ filled, filled < 6 ∧
      stream 6 (sextets bytes) = octetBits bytes ++ List.replicate filled false := by
  fun_induction sextets bytes with
  | case1 a b c bytes ih =>
      rcases ih with ⟨small, filled, few, groups⟩
      have ha := a.toNat_lt
      have hb := b.toNat_lt
      have hc := c.toNat_lt
      constructor
      · intro number member
        rcases List.mem_append.mp member with first | later
        · simp only [List.mem_cons, List.not_mem_nil, or_false] at first
          omega
        · exact small number later
      · refine ⟨filled, few, ?_⟩
        rw [stream_append, groups, octetBits_cons, octetBits_cons, octetBits_cons,
          bits_split 6 2 a.toNat, bits_split 4 4 b.toNat, bits_split 2 6 c.toNat]
        simp only [stream_cons, stream_nil, List.append_nil, List.append_assoc, Nat.reducePow,
          bits_two_four (a.toNat % 4) (show b.toNat / 16 < 16 by omega),
          bits_four_two (b.toNat % 16) (show c.toNat / 64 < 4 by omega)]
  | case2 a b =>
      have ha := a.toNat_lt
      have hb := b.toNat_lt
      constructor
      · intro number member
        simp only [List.mem_cons, List.not_mem_nil, or_false] at member
        omega
      · refine ⟨2, by decide, ?_⟩
        have last := bits_four_two (b.toNat % 16) (show 0 < 4 by decide)
        rw [Nat.add_zero, bits_zero] at last
        rw [octetBits_cons, octetBits_cons, bits_split 6 2 a.toNat, bits_split 4 4 b.toNat]
        simp only [stream_cons, stream_nil, octetBits, List.map_nil, List.append_nil,
          List.append_assoc, Nat.reducePow,
          bits_two_four (a.toNat % 4) (show b.toNat / 16 < 16 by omega), last]
  | case3 a =>
      have ha := a.toNat_lt
      constructor
      · intro number member
        simp only [List.mem_cons, List.not_mem_nil, or_false] at member
        omega
      · refine ⟨4, by decide, ?_⟩
        have last := bits_two_four (a.toNat % 4) (show 0 < 16 by decide)
        rw [Nat.add_zero, bits_zero] at last
        rw [octetBits_cons, bits_split 6 2 a.toNat]
        simp only [stream_cons, stream_nil, octetBits, List.map_nil, List.append_nil,
          List.append_assoc, Nat.reducePow, last]
  | case4 =>
      constructor
      · intro number member
        cases member
      · exact ⟨0, by decide, rfl⟩

theorem octetBits_ofNat (high low : Nat) {left right : Nat} (bytes : List UInt8)
    (width : high + low = 8) (leftFits : left < 2 ^ high) (rightFits : right < 2 ^ low) :
    octetBits (.ofNat (left * 2 ^ low + right) :: bytes) =
      bits high left ++ bits low right ++ octetBits bytes := by
  have scaled := Nat.mul_le_mul_right (2 ^ low) (Nat.succ_le_of_lt leftFits)
  rw [← Nat.pow_add, width, Nat.succ_mul] at scaled
  have fits : left * 2 ^ low + right < 256 := by omega
  rw [octetBits_cons, UInt8.toNat_ofNat_of_lt' fits, ← bits_join left rightFits, width]

theorem stream_octets (numbers : List Nat) (small : ∀ number ∈ numbers, number < 64) :
    ∃ rest, rest.length < 8 ∧ stream 6 numbers = octetBits (octets numbers) ++ rest := by
  have first : ∀ (v w : Nat) (bytes : List UInt8), v < 64 → w < 64 →
      octetBits (.ofNat (v * 4 + w / 16) :: bytes) =
        bits 6 v ++ bits 2 (w / 16) ++ octetBits bytes :=
    fun v w bytes hv hw => octetBits_ofNat 6 2 bytes rfl hv (show w / 16 < 4 by omega)
  have second : ∀ (w x : Nat) (bytes : List UInt8), x < 64 →
      octetBits (.ofNat (w % 16 * 16 + x / 4) :: bytes) =
        bits 4 (w % 16) ++ bits 4 (x / 4) ++ octetBits bytes :=
    fun w x bytes hx => octetBits_ofNat 4 4 bytes rfl (show w % 16 < 16 by omega)
      (show x / 4 < 16 by omega)
  have third : ∀ (x y : Nat) (bytes : List UInt8), y < 64 →
      octetBits (.ofNat (x % 4 * 64 + y) :: bytes) =
        bits 2 (x % 4) ++ bits 6 y ++ octetBits bytes :=
    fun x y bytes hy => octetBits_ofNat 2 6 bytes rfl (show x % 4 < 4 by omega) hy
  fun_induction octets numbers with
  | case1 v w x y numbers ih =>
      simp only [List.forall_mem_cons] at small
      rcases small with ⟨hv, hw, hx, hy, later⟩
      rcases ih later with ⟨rest, incomplete, groups⟩
      refine ⟨rest, incomplete, ?_⟩
      rw [stream_cons, stream_cons, stream_cons, stream_cons, groups, bits_split 2 4 w,
        bits_split 4 2 x]
      simp only [List.cons_append, List.nil_append, List.append_assoc, Nat.reducePow,
        first v w _ hv hw, second w x _ hx, third x y _ hy]
  | case2 v w x =>
      simp only [List.forall_mem_cons] at small
      rcases small with ⟨hv, hw, hx, _⟩
      refine ⟨bits 2 (x % 4), by rw [length_bits]; decide, ?_⟩
      rw [stream_cons, stream_cons, stream_cons, bits_split 2 4 w, bits_split 4 2 x,
        first v w _ hv hw, second w x _ hx]
      simp only [stream_nil, octetBits, List.map_nil, List.append_nil, List.append_assoc,
        Nat.reducePow]
  | case3 v w =>
      simp only [List.forall_mem_cons] at small
      rcases small with ⟨hv, hw, _⟩
      refine ⟨bits 4 (w % 16), by rw [length_bits]; decide, ?_⟩
      rw [stream_cons, stream_cons, bits_split 2 4 w, first v w _ hv hw]
      simp only [stream_nil, octetBits, List.map_nil, List.append_nil, List.append_assoc,
        Nat.reducePow]
  | case4 numbers four three two =>
      refine ⟨stream 6 numbers, ?_, rfl⟩
      rcases numbers with _ | ⟨v, _ | ⟨w, numbers⟩⟩
      · decide
      · rw [length_stream, List.length_singleton]
        decide
      · rcases numbers with _ | ⟨x, _ | ⟨y, numbers⟩⟩
        · exact absurd rfl (two v w)
        · exact absurd rfl (three v w x)
        · exact absurd rfl (four v w x y numbers)

theorem sextetOf_lt {c : UInt8} {number : Nat} (found : sextetOf c = some number) :
    number < 64 := by
  unfold sextetOf at found
  split at found
  · cases found
    decide
  · rcases List.idxOf?_eq_some_iff.mp found with ⟨inside, _⟩
    exact inside

theorem mapM_sextetOf {chars : List UInt8} {numbers : List Nat}
    (values : chars.map sextetOf = numbers.map some) : chars.mapM sextetOf = some numbers := by
  induction chars generalizing numbers with
  | nil =>
      cases numbers with
      | nil => rfl
      | cons number numbers => cases values
  | cons c chars ih =>
      cases numbers with
      | nil => cases values
      | cons number numbers =>
          rw [List.map_cons, List.map_cons, List.cons.injEq] at values
          rw [List.mapM_cons, values.1, ih values.2]
          rfl

theorem documented_inSteps : inSteps.Documented where
  fromBinary := by
    intro bytes
    rcases stream_sextets bytes with ⟨small, filled, few, groups⟩
    exact ⟨sextets bytes, filled, rfl, small, few, groups⟩
  toBinary := by
    intro chars numbers values
    have small : ∀ number ∈ numbers, number < 64 := by
      intro number member
      have value : some number ∈ chars.map sextetOf := by
        rw [values]
        exact List.mem_map_of_mem member
      rcases List.mem_map.mp value with ⟨c, _, found⟩
      exact sextetOf_lt found
    rcases stream_octets numbers small with ⟨rest, incomplete, groups⟩
    refine ⟨octets numbers, rest, ?_, incomplete, groups⟩
    change (chars.mapM sextetOf).map octets = _
    rw [mapM_sextetOf values]
    rfl

/-- The string "abc". -/
theorem base64_abc : Base64Kept inSteps [97, 98, 99] [] :=
  (base64_iff documented_inSteps [97, 98, 99] []).mpr (by decide)

/-- The string "a" comes back with two zeros behind it. -/
theorem not_base64 : ¬∀ str behind, Base64Kept inSteps str behind := by
  intro kept
  rcases kept [97] [] with ⟨code, encoded, decoded⟩
  cases encoded
  exact absurd decoded (by decide)

end Crypto

end FiberNet
