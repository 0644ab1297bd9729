import FiberNet.Socket.Ipv4

/-! # Prefixes of IPv6 addresses -/

namespace FiberNet

namespace Socket

/-- An access behind the end of `s6_addr`. -/
inductive Fault
  | outOfBounds
  deriving DecidableEq

/-- `getMaskCode<uint8_t>`. -/
def getMaskCode8 (bits : Nat) : UInt8 :=
  .ofNat ((1 <<< (8 - bits)) - 1)

/-- The loop of `getMaskLen` over the bytes of a mask. -/
def maskBytesLoop : (bytes : List UInt8) → (res : Nat) → Nat
  | [], res => res
  | byte :: bytes, res =>
      let t := getMaskLen (byte.toBitVec.setWidth 32)
      if t = 0 then res else maskBytesLoop bytes (res + t)

/-- `getMaskLen` of an `in6_addr`. -/
def getMaskLen6 (mask : Vector UInt8 16) : Nat :=
  maskBytesLoop mask.toList 0

/-- An assignment to one byte of `s6_addr`. -/
def update (addr : Vector UInt8 16) (index : Nat) (change : UInt8 → UInt8) :
    Except Fault (Vector UInt8 16) :=
  if inside : index < 16 then .ok (addr.set index (change addr[index])) else .error .outOfBounds

/-- A loop that assigns one value to bytes of `s6_addr`. -/
def fill (addr : Vector UInt8 16) (value : UInt8) (indices : List Nat) :
    Except Fault (Vector UInt8 16) :=
  indices.foldlM (fun addr index => update addr index fun _ => value) addr

namespace SockaddrIn6

def getBroadcastAddress (address : SockaddrIn6) (prefixLen : Nat) :
    Except Fault (Option SockaddrIn6) := do
  if prefixLen > 128 then return none
  let addr ← update address.addr (prefixLen / 8) (· ||| getMaskCode8 (prefixLen % 8))
  let addr ← fill addr 0xff (List.range' (prefixLen / 8 + 1) (16 - (prefixLen / 8 + 1)))
  return some { address with addr := addr }

def getNetworkAddress (address : SockaddrIn6) (prefixLen : Nat) :
    Except Fault (Option SockaddrIn6) := do
  if prefixLen > 128 then return none
  let addr ← update address.addr (prefixLen / 8) (· &&& ~~~getMaskCode8 (prefixLen % 8))
  let addr ← fill addr 0x00 (List.range' (prefixLen / 8 + 1) (16 - (prefixLen / 8 + 1)))
  return some { address with addr := addr }

def getHostAddress (address : SockaddrIn6) (prefixLen : Nat) :
    Except Fault (Option SockaddrIn6) := do
  if prefixLen > 128 then return none
  let addr ← update address.addr (prefixLen / 8) (· &&& getMaskCode8 (prefixLen % 8))
  let addr ← fill addr 0x00 (List.range (prefixLen / 8))
  return some { address with addr := addr }

def getSubnetMask (prefixLen : Nat) : Except Fault (Option SockaddrIn6) := do
  if prefixLen > 128 then return none
  let saddr : SockaddrIn6 := {}
  let addr ← update saddr.addr (prefixLen / 8) fun _ => ~~~getMaskCode8 (prefixLen % 8)
  let addr ← fill addr 0xff (List.range' (prefixLen / 8 + 1) (16 - (prefixLen / 8 + 1)))
  return some { saddr with addr := addr }

/-- The number that the bytes are, the first one its highest. -/
def value (address : SockaddrIn6) : BitVec 128 :=
  .ofNat 128 (ofBytes address.addr.toList.reverse)

end SockaddrIn6

/-! ## Bits and bytes -/

theorem fill_eq (value : UInt8) {indices : List Nat} (inside : ∀ index ∈ indices, index < 16)
    (addr : Vector UInt8 16) :
    ∃ filled, fill addr value indices = .ok filled ∧
      ∀ index (below : index < 16),
        filled[index] = if index ∈ indices then value else addr[index] := by
  induction indices generalizing addr with
  | nil => exact ⟨addr, rfl, fun index below => by simp⟩
  | cons first indices induction =>
      have here := inside first List.mem_cons_self
      rcases induction (fun index member => inside index (List.mem_cons_of_mem first member))
        (addr.set first value) with ⟨filled, rest, bytes⟩
      refine ⟨filled, ?_, ?_⟩
      · rw [fill, List.foldlM_cons, update, dif_pos here]
        exact rest
      · intro index below
        rw [bytes index below, Vector.getElem_set]
        by_cases later : index ∈ indices
        · simp [later]
        · by_cases same : first = index
          · simp [same]
          · simp [later, same, Ne.symm same]

/-- The byte of a bit and its place in the byte. -/
theorem getLsbD_value (address : SockaddrIn6) {index bit : Nat} (below : index < 16)
    (inside : bit < 8) :
    address.value.getLsbD (8 * (15 - index) + bit) = address.addr[index].toNat.testBit bit := by
  have byte : (8 * (15 - index) + bit) / 8 = 15 - index := by omega
  have place : (8 * (15 - index) + bit) % 8 = bit := by omega
  have length : address.addr.toList.length = 16 := by simp
  have found : address.addr.toList.reverse.getD (15 - index) 0 = address.addr[index] := by
    rw [List.getD_eq_getElem?_getD, List.getElem?_reverse (by omega), length,
      show 16 - 1 - (15 - index) = index by omega]
    simp [below]
  rw [SockaddrIn6.value, BitVec.getLsbD_ofNat, testBit_ofBytes, byte, place, found,
    decide_eq_true (by omega), Bool.true_and]

theorem eq_of_bytes {left right : BitVec 128}
    (same : ∀ index < 16, ∀ bit < 8,
      left.getLsbD (8 * (15 - index) + bit) = right.getLsbD (8 * (15 - index) + bit)) :
    left = right := by
  apply BitVec.eq_of_getLsbD_eq
  intro place below
  have bits := same (15 - place / 8) (by omega) (place % 8) (Nat.mod_lt place (by decide))
  rwa [show 8 * (15 - (15 - place / 8)) + place % 8 = place by omega] at bits

theorem testBit_maskCode8 (bits : Nat) {bit : Nat} (inside : bit < 8) :
    (getMaskCode8 bits).toNat.testBit bit = !decide (8 - bits ≤ bit) := by
  rw [getMaskCode8, UInt8.toNat_ofNat', Nat.testBit_mod_two_pow, decide_eq_true inside,
    Bool.true_and, Nat.one_shiftLeft, Nat.testBit_two_pow_sub_one, ← decide_not, decide_eq_decide]
  exact not_le.symm

theorem testBit_not (byte : UInt8) {bit : Nat} (inside : bit < 8) :
    (~~~byte).toNat.testBit bit = !byte.toNat.testBit bit := by
  rw [← UInt8.toNat_toBitVec, ← UInt8.toNat_toBitVec, BitVec.testBit_toNat, BitVec.testBit_toNat,
    UInt8.toBitVec_not, BitVec.getLsbD_not, decide_eq_true inside, Bool.true_and]

theorem update_fill {position : Nat} (change : UInt8 → UInt8) (value : UInt8)
    {indices : List Nat} (within : position < 16) (inside : ∀ index ∈ indices, index < 16)
    (apart : position ∉ indices) (addr : Vector UInt8 16) :
    ∃ changed filled, update addr position change = .ok changed ∧
      fill changed value indices = .ok filled ∧
      ∀ index (small : index < 16), filled[index] =
        if index = position then change addr[index]
        else if index ∈ indices then value else addr[index] := by
  rcases fill_eq value inside (addr.set position (change addr[position])) with
    ⟨filled, done, bytes⟩
  refine ⟨_, filled, dif_pos within, done, ?_⟩
  intro index below
  rw [bytes index below, Vector.getElem_set]
  by_cases same : position = index
  · subst same
    simp [apart]
  · simp [same, Ne.symm same]

/-- The mask byte by byte. -/
theorem prefixMask_byte {prefixLen index bit : Nat} (below : prefixLen < 128) (within : index < 16)
    (inside : bit < 8) :
    (prefixMask 128 prefixLen).getLsbD (8 * (15 - index) + bit) =
      if index = prefixLen / 8 then decide (8 - prefixLen % 8 ≤ bit)
      else decide (index < prefixLen / 8) := by
  rw [getLsbD_prefixMask]
  split
  · rw [decide_eq_decide]
    omega
  · rw [decide_eq_decide]
    omega

/-- The loop adds up the bytes of a mask, and stops behind it. -/
theorem maskBytesLoop_eq {bytes : List UInt8} {prefixLen : Nat}
    (high : ∀ index < bytes.length, ∀ bit < 8,
      (bytes.getD index 0).toNat.testBit bit = decide (8 * index + 7 - bit < prefixLen))
    (res : Nat) : maskBytesLoop bytes res = res + min prefixLen (8 * bytes.length) := by
  induction bytes generalizing prefixLen res with
  | nil => simp [maskBytesLoop]
  | cons byte bytes induction =>
      have first : setBits (byte.toBitVec.setWidth 32) = Finset.Ico (8 - min prefixLen 8) 8 := by
        ext bit
        rw [mem_setBits, BitVec.getLsbD_setWidth, Finset.mem_Ico]
        by_cases small : bit < 8
        · have given := high 0 (by simp) bit small
          rw [List.getD_cons_zero, ← UInt8.toNat_toBitVec, BitVec.testBit_toNat] at given
          rw [given, decide_eq_true (by omega), Bool.true_and, decide_eq_true_iff]
          omega
        · rw [BitVec.getLsbD_of_ge _ _ (by omega), Bool.and_false]
          simp [small]
      have rest := fun res => @induction (prefixLen - 8) (by
        intro index below bit small
        have given := high (index + 1) (by simpa using below) bit small
        rw [List.getD_cons_succ] at given
        rw [given, decide_eq_decide]
        omega) res
      have taken : getMaskLen (byte.toBitVec.setWidth 32) = min prefixLen 8 := by
        rw [getMaskLen_eq, first, Nat.card_Ico]
        omega
      rw [maskBytesLoop, taken, List.length_cons]
      split
      · omega
      · rw [rest]
        omega

/-- The length of a mask is found again. -/
theorem getMaskLen6_eq {mask : SockaddrIn6} {prefixLen : Nat} (within : prefixLen ≤ 128)
    (contiguous : mask.value = prefixMask 128 prefixLen) :
    getMaskLen6 mask.addr = prefixLen := by
  have length : mask.addr.toList.length = 16 := by simp
  rw [getMaskLen6, @maskBytesLoop_eq _ prefixLen, length]
  · omega
  · intro index below bit small
    rw [length] at below
    have same := getLsbD_value mask below small
    rw [contiguous, getLsbD_prefixMask] at same
    have byte : mask.addr.toList.getD index 0 = mask.addr[index] := by simp [below]
    rw [byte, ← same, decide_eq_decide]
    omega

namespace SockaddrIn6

variable (address : SockaddrIn6) {prefixLen : Nat}

/-- The bytes behind the one that the prefix ends in. -/
theorem mem_behind (prefixLen index : Nat) :
    index ∈ List.range' (prefixLen / 8 + 1) (16 - (prefixLen / 8 + 1)) ↔
      prefixLen / 8 < index ∧ index < 16 := by
  rw [List.mem_range'_1]
  omega

/-- What the operations that go on behind the end of the prefix store. -/
theorem update_behind (below : prefixLen < 128) (change : UInt8 → UInt8) (value : UInt8)
    (addr : Vector UInt8 16) :
    ∃ changed filled, update addr (prefixLen / 8) change = .ok changed ∧
      fill changed value (List.range' (prefixLen / 8 + 1) (16 - (prefixLen / 8 + 1))) =
        .ok filled ∧
      ∀ index (within : index < 16), filled[index] =
        if index = prefixLen / 8 then change addr[index]
        else if index < prefixLen / 8 then addr[index] else value := by
  have apart : prefixLen / 8 ∉ List.range' (prefixLen / 8 + 1) (16 - (prefixLen / 8 + 1)) := by
    rw [mem_behind]
    omega
  rcases update_fill change value (show prefixLen / 8 < 16 by omega)
    (fun index member => ((mem_behind prefixLen index).mp member).2) apart addr with
    ⟨changed, filled, first, rest, bytes⟩
  refine ⟨changed, filled, first, rest, ?_⟩
  intro index within
  have member := mem_behind prefixLen index
  rw [bytes index within]
  by_cases same : index = prefixLen / 8
  · rw [if_pos same, if_pos same]
  · rw [if_neg same, if_neg same]
    by_cases before : index < prefixLen / 8
    · rw [if_pos before, if_neg (mt member.mp (by omega))]
    · rw [if_neg before, if_pos (member.mpr (by omega))]

theorem network_eq (below : prefixLen < 128) :
    ∃ network, address.getNetworkAddress prefixLen = .ok (some network) ∧
      network.value = address.value &&& prefixMask 128 prefixLen := by
  rcases update_behind below (· &&& ~~~getMaskCode8 (prefixLen % 8)) 0x00 address.addr with
    ⟨changed, filled, first, rest, bytes⟩
  refine ⟨{ address with addr := filled }, ?_, ?_⟩
  · rw [getNetworkAddress, if_neg (by omega)]
    simp only [bind, Except.bind, pure, Except.pure, first, rest]
  · apply eq_of_bytes
    intro index within bit small
    rw [getLsbD_value _ within small, BitVec.getLsbD_and, getLsbD_value _ within small,
      prefixMask_byte below within small, bytes index within]
    split
    · rw [UInt8.toNat_and, Nat.testBit_and, testBit_not _ small, testBit_maskCode8 _ small,
        Bool.not_not]
    · split
      · rename_i before
        rw [decide_eq_true before, Bool.and_true]
      · rename_i behind
        rw [decide_eq_false behind, Bool.and_false]
        exact Nat.zero_testBit bit

theorem broadcast_eq (below : prefixLen < 128) :
    ∃ broadcast, address.getBroadcastAddress prefixLen = .ok (some broadcast) ∧
      broadcast.value = address.value ||| ~~~prefixMask 128 prefixLen := by
  rcases update_behind below (· ||| getMaskCode8 (prefixLen % 8)) 0xff address.addr with
    ⟨changed, filled, first, rest, bytes⟩
  refine ⟨{ address with addr := filled }, ?_, ?_⟩
  · rw [getBroadcastAddress, if_neg (by omega)]
    simp only [bind, Except.bind, pure, Except.pure, first, rest]
  · apply eq_of_bytes
    intro index within bit small
    rw [getLsbD_value _ within small, BitVec.getLsbD_or, BitVec.getLsbD_not,
      getLsbD_value _ within small, prefixMask_byte below within small, bytes index within,
      decide_eq_true (by omega), Bool.true_and]
    split
    · rw [UInt8.toNat_or, Nat.testBit_or, testBit_maskCode8 _ small]
    · split
      · rename_i before
        rw [decide_eq_true before, Bool.not_true, Bool.or_false]
      · rename_i behind
        rw [decide_eq_false behind, Bool.not_false, Bool.or_true]
        exact (Nat.testBit_two_pow_sub_one 8 bit).trans (decide_eq_true small)

theorem hostPart_eq (below : prefixLen < 128) :
    ∃ part, address.getHostAddress prefixLen = .ok (some part) ∧
      part.value = address.value &&& ~~~prefixMask 128 prefixLen := by
  have inside (index : Nat) (member : index ∈ List.range (prefixLen / 8)) : index < 16 := by
    have before := List.mem_range.mp member
    omega
  have apart : prefixLen / 8 ∉ List.range (prefixLen / 8) := by
    rw [List.mem_range]
    omega
  rcases update_fill (· &&& getMaskCode8 (prefixLen % 8)) 0x00 (by omega) inside apart
    address.addr with ⟨changed, filled, first, rest, bytes⟩
  refine ⟨{ address with addr := filled }, ?_, ?_⟩
  · rw [getHostAddress, if_neg (by omega)]
    simp only [bind, Except.bind, pure, Except.pure, first, rest]
  · apply eq_of_bytes
    intro index within bit small
    rw [getLsbD_value _ within small, BitVec.getLsbD_and, BitVec.getLsbD_not,
      getLsbD_value _ within small, prefixMask_byte below within small, bytes index within,
      decide_eq_true (by omega), Bool.true_and]
    simp only [List.mem_range]
    split
    · rw [UInt8.toNat_and, Nat.testBit_and, testBit_maskCode8 _ small]
    · split
      · rename_i before
        rw [decide_eq_true before, Bool.not_true, Bool.and_false]
        exact Nat.zero_testBit bit
      · rename_i behind
        rw [decide_eq_false behind, Bool.not_false, Bool.and_true]

/-! ## The prefix operations -/

variable (prefixLen)

/-- A result inside of `s6_addr` that holds a number. -/
def Gives (result : Except Fault (Option SockaddrIn6)) (number : BitVec 128) : Prop :=
  ∃ given, result = .ok (some given) ∧ given.value = number

/-- What the operations are to do. -/
def PrefixOperations : Prop :=
  ∃ network part broadcast mask : SockaddrIn6,
    address.getNetworkAddress prefixLen = .ok (some network) ∧
    address.getHostAddress prefixLen = .ok (some part) ∧
    address.getBroadcastAddress prefixLen = .ok (some broadcast) ∧
    getSubnetMask prefixLen = .ok (some mask) ∧
    mask.value = prefixMask 128 prefixLen ∧
    network.value = address.value &&& mask.value ∧
    part.value = address.value &&& ~~~mask.value ∧
    broadcast.value = address.value ||| ~~~mask.value ∧
    network.value ||| part.value = address.value ∧
    getMaskLen6 mask.addr = prefixLen

variable {address prefixLen}

theorem not_gives_of_null {result : Except Fault (Option SockaddrIn6)} {number : BitVec 128}
    (null : result = .ok none) : ¬Gives result number := by
  rintro ⟨given, same, _⟩
  rw [null] at same
  cases same

theorem not_gives_of_fault {result : Except Fault (Option SockaddrIn6)} {number : BitVec 128}
    (fault : result = .error .outOfBounds) : ¬Gives result number := by
  rintro ⟨given, same, _⟩
  rw [fault] at same
  cases same

/-- An operation that leaves `s6_addr` at the end of the prefix. -/
theorem gives_iff {operation : Nat → Except Fault (Option SockaddrIn6)} {number : BitVec 128}
    (inside : prefixLen < 128 → Gives (operation prefixLen) number)
    (behind : operation 128 = .error .outOfBounds)
    (long : ∀ length > 128, operation length = .ok none) :
    Gives (operation prefixLen) number ↔ prefixLen < 128 := by
  constructor
  · intro given
    rcases Nat.lt_trichotomy prefixLen 128 with below | same | above
    · exact below
    · rw [same] at given
      exact absurd given (not_gives_of_fault behind)
    · exact absurd given (not_gives_of_null (long prefixLen above))
  · exact inside

/-- The loop sets the bytes that it has to clear, and those before it stay clear. -/
theorem not_gives_mask : ¬Gives (getSubnetMask prefixLen) (prefixMask 128 prefixLen) := by
  rintro ⟨mask, returned, right⟩
  have below : prefixLen < 128 := by
    rcases Nat.lt_trichotomy prefixLen 128 with below | same | above
    · exact below
    · subst same
      cases returned
    · rw [getSubnetMask, if_pos above] at returned
      cases returned
  rcases update_behind below (fun _ => ~~~getMaskCode8 (prefixLen % 8)) 0xff
    (.replicate 16 0) with ⟨changed, filled, first, rest, bytes⟩
  rw [getSubnetMask, if_neg (by omega)] at returned
  simp only [bind, Except.bind, pure, Except.pure, first, rest] at returned
  cases returned
  have bit (index : Nat) (within : index < 16) :
      filled[index].toNat.testBit 0 = if index = prefixLen / 8 then decide (8 - prefixLen % 8 ≤ 0)
        else decide (index < prefixLen / 8) := by
    rw [← prefixMask_byte below within (by decide), ← right, getLsbD_value _ within (by decide)]
  by_cases low : prefixLen / 8 = 0
  · have last := bit 15 (by decide)
    rw [bytes 15 (by decide), low] at last
    exact absurd last (by simp)
  · have start := bit 0 (by decide)
    rw [bytes 0 (by decide), if_neg (Ne.symm low), if_pos (Nat.pos_of_ne_zero low),
      if_neg (Ne.symm low), decide_eq_true (Nat.pos_of_ne_zero low)] at start
    exact absurd start (by simp)

/-- Network, host and broadcast address are right up to the end of the address, no mask is, and so
the four do not belong together for any prefix. -/
theorem prefix_operations_iff (address : SockaddrIn6) (prefixLen : Nat) :
    (Gives (address.getNetworkAddress prefixLen) (address.value &&& prefixMask 128 prefixLen) ↔
      prefixLen < 128) ∧
    (Gives (address.getHostAddress prefixLen) (address.value &&& ~~~prefixMask 128 prefixLen) ↔
      prefixLen < 128) ∧
    (Gives (address.getBroadcastAddress prefixLen)
        (address.value ||| ~~~prefixMask 128 prefixLen) ↔ prefixLen < 128) ∧
    ¬Gives (getSubnetMask prefixLen) (prefixMask 128 prefixLen) ∧
    (∀ mask : SockaddrIn6, prefixLen ≤ 128 → mask.value = prefixMask 128 prefixLen →
      getMaskLen6 mask.addr = prefixLen) ∧
    ¬PrefixOperations address prefixLen := by
  refine ⟨?_, ?_, ?_, not_gives_mask, fun mask => getMaskLen6_eq, ?_⟩
  · exact gives_iff (network_eq address) rfl fun length above => if_pos above
  · exact gives_iff (hostPart_eq address) rfl fun length above => if_pos above
  · exact gives_iff (broadcast_eq address) rfl fun length above => if_pos above
  · rintro ⟨_, _, _, mask, _, _, _, returned, right, _⟩
    exact not_gives_mask ⟨mask, returned, right⟩

/-- The mask of half an address. -/
theorem subnetMask_of_half : ¬PrefixOperations {} 64 := by
  rintro ⟨_, _, _, mask, _, _, _, returned, right, _⟩
  have computed : getSubnetMask 64 =
      .ok (some { addr := #v[0, 0, 0, 0, 0, 0, 0, 0, 0, 255, 255, 255, 255, 255, 255, 255] }) := by
    decide
  rw [computed] at returned
  cases returned
  exact absurd right (by decide)

end SockaddrIn6

end Socket

end FiberNet
