import FiberNet.Foundation.Words
import FiberNet.Socket.Address

/-! # Prefixes of IPv4 addresses -/

namespace FiberNet

namespace Socket

/-! ## Masks and their lengths -/

/-- `getMaskCode<uint32_t>`, whose shift is one of 64 bits. -/
def getMaskCode (bits : Nat) : BitVec 32 :=
  ((1#64 <<< (32 - bits)) - 1#64).setWidth 32

section

variable {w : Nat}

/-- The loop of `getMaskLen`. -/
def maskLenLoop (value : BitVec w) (res : Nat) : Nat :=
  if zero : value = 0#w then res else maskLenLoop (value - (value &&& -value)) (res + 1)
termination_by (setBits value).card
decreasing_by
  rcases setBits_sub_lowest zero with ⟨lowest, member, cleared⟩
  rw [cleared]
  exact Finset.card_erase_lt_of_mem member

/-- `getMaskLen` of a machine word. -/
def getMaskLen (value : BitVec w) : Nat := maskLenLoop value 0

theorem maskLenLoop_eq (value : BitVec w) (res : Nat) :
    maskLenLoop value res = res + (setBits value).card := by
  induction value, res using maskLenLoop.induct with
  | case1 res => rw [maskLenLoop, dif_pos rfl, setBits_zero, Finset.card_empty, Nat.add_zero]
  | case2 value res nonzero induction =>
      rcases setBits_sub_lowest nonzero with ⟨lowest, member, cleared⟩
      have one := Finset.card_erase_add_one member
      rw [maskLenLoop, dif_neg nonzero, induction, cleared]
      omega

/-- The number of the bits that are set. -/
theorem getMaskLen_eq (value : BitVec w) : getMaskLen value = (setBits value).card := by
  rw [getMaskLen, maskLenLoop_eq, Nat.zero_add]

end

theorem card_setBits_byteSwap {count : Nat} (value : BitVec (8 * count)) :
    (setBits (byteSwap count value)).card = (setBits value).card := by
  apply Finset.card_nbij' (swappedBit count) (swappedBit count)
  · intro index member
    have set := mem_setBits.mp (Finset.mem_coe.mp member)
    have below := BitVec.lt_of_getLsbD set
    rw [getLsbD_byteSwap value below] at set
    exact Finset.mem_coe.mpr (mem_setBits.mpr set)
  · intro index member
    have set := mem_setBits.mp (Finset.mem_coe.mp member)
    have below := BitVec.lt_of_getLsbD set
    apply Finset.mem_coe.mpr
    rw [mem_setBits, getLsbD_byteSwap value (swappedBit_lt below), swappedBit_swappedBit below]
    exact set
  · intro index member
    exact swappedBit_swappedBit (BitVec.lt_of_getLsbD (mem_setBits.mp (Finset.mem_coe.mp member)))
  · intro index member
    exact swappedBit_swappedBit (BitVec.lt_of_getLsbD (mem_setBits.mp (Finset.mem_coe.mp member)))

/-- The order of the bytes does not matter for the length. -/
theorem getMaskLen_byteSwapOnLittleEndian (host : Endian) {count : Nat}
    (value : BitVec (8 * count)) :
    getMaskLen (byteSwapOnLittleEndian host count value) = getMaskLen value := by
  rw [getMaskLen_eq, getMaskLen_eq]
  cases host with
  | little => exact card_setBits_byteSwap value
  | big => rfl

theorem getMaskCode_eq (bits : Nat) :
    getMaskCode bits = ~~~prefixMask 32 bits := by
  have shifted : 1#64 <<< (32 - bits) = BitVec.ofNat 64 (2 ^ (32 - bits)) := by
    apply BitVec.eq_of_toNat_eq
    rw [BitVec.toNat_shiftLeft, Nat.shiftLeft_eq, BitVec.toNat_ofNat, BitVec.toNat_ofNat]
    omega
  rw [getMaskCode, shifted, BitVec.ofNat_sub_ofNat_of_le _ _ (by decide) (Nat.two_pow_pos _),
    BitVec.setWidth_ofNat_of_le (by decide), prefixMask, BitVec.not_not]

/-! ## Operations of an address -/

namespace SockaddrIn

variable (host : Endian)

def getBroadcastAddress (address : SockaddrIn) (prefixLen : Nat) : Option SockaddrIn :=
  if prefixLen > 32 then none
  else
    some { address with
      addr := address.addr ||| byteSwapOnLittleEndian host 4 (getMaskCode prefixLen) }

def getNetworkAddress (address : SockaddrIn) (prefixLen : Nat) : Option SockaddrIn :=
  if prefixLen > 32 then none
  else
    some { address with
      addr := address.addr &&& ~~~byteSwapOnLittleEndian host 4 (getMaskCode prefixLen) }

def getHostAddress (address : SockaddrIn) (prefixLen : Nat) : Option SockaddrIn :=
  if prefixLen > 32 then none
  else
    some { address with
      addr := address.addr &&& byteSwapOnLittleEndian host 4 (getMaskCode prefixLen) }

def getSubnetMask (prefixLen : Nat) : Option SockaddrIn :=
  if prefixLen > 32 then none
  else
    some { addr := ~~~byteSwapOnLittleEndian host 4 (getMaskCode prefixLen) }

/-- The address in the byte order of the host. -/
def value (address : SockaddrIn) : BitVec 32 :=
  byteSwapOnLittleEndian host 4 address.addr

variable (address : SockaddrIn) {prefixLen : Nat}

theorem network_eq (within : prefixLen ≤ 32) :
    ∃ network, address.getNetworkAddress host prefixLen = some network ∧
      network.value host = address.value host &&& prefixMask 32 prefixLen ∧
      network.port = address.port ∧ network.family = address.family := by
  refine ⟨_, if_neg (Nat.not_lt.mpr within), ?_, rfl, rfl⟩
  rw [value, byteSwapOnLittleEndian_and, byteSwapOnLittleEndian_not, byteSwapOnLittleEndian_twice,
    getMaskCode_eq, BitVec.not_not, value]

theorem hostPart_eq (within : prefixLen ≤ 32) :
    ∃ part, address.getHostAddress host prefixLen = some part ∧
      part.value host = address.value host &&& ~~~prefixMask 32 prefixLen ∧
      part.port = address.port ∧ part.family = address.family := by
  refine ⟨_, if_neg (Nat.not_lt.mpr within), ?_, rfl, rfl⟩
  rw [value, byteSwapOnLittleEndian_and, byteSwapOnLittleEndian_twice, getMaskCode_eq, value]

theorem broadcast_eq (within : prefixLen ≤ 32) :
    ∃ broadcast, address.getBroadcastAddress host prefixLen = some broadcast ∧
      broadcast.value host = address.value host ||| ~~~prefixMask 32 prefixLen ∧
      broadcast.port = address.port ∧ broadcast.family = address.family := by
  refine ⟨_, if_neg (Nat.not_lt.mpr within), ?_, rfl, rfl⟩
  rw [value, byteSwapOnLittleEndian_or, byteSwapOnLittleEndian_twice, getMaskCode_eq, value]

theorem subnetMask_eq (within : prefixLen ≤ 32) :
    ∃ mask, getSubnetMask host prefixLen = some mask ∧
      mask.value host = prefixMask 32 prefixLen ∧ getMaskLen mask.addr = prefixLen := by
  have length (address : SockaddrIn) : getMaskLen address.addr = getMaskLen (address.value host) :=
    (@getMaskLen_byteSwapOnLittleEndian host 4 address.addr).symm
  have converted :
      SockaddrIn.value host { addr := ~~~byteSwapOnLittleEndian host 4 (getMaskCode prefixLen) } =
        prefixMask 32 prefixLen := by
    rw [value, byteSwapOnLittleEndian_not, byteSwapOnLittleEndian_twice, getMaskCode_eq,
      BitVec.not_not]
  refine ⟨_, if_neg (Nat.not_lt.mpr within), converted, ?_⟩
  rw [length, converted, getMaskLen_eq, card_setBits_prefixMask within]

/-- The operations in the byte order of the host: one mask gives all of them, the addresses
between network and broadcast are those of the network, and the length is found again. -/
theorem prefix_operations (host : Endian) (address : SockaddrIn) (prefixLen : Nat)
    (within : prefixLen ≤ 32) :
    ∃ mask network part broadcast : SockaddrIn,
      getSubnetMask host prefixLen = some mask ∧
      address.getNetworkAddress host prefixLen = some network ∧
      address.getHostAddress host prefixLen = some part ∧
      address.getBroadcastAddress host prefixLen = some broadcast ∧
      (∀ index < 32, (mask.value host).getLsbD index = decide (32 - prefixLen ≤ index)) ∧
      network.value host = address.value host &&& mask.value host ∧
      part.value host = address.value host &&& ~~~mask.value host ∧
      broadcast.value host = address.value host ||| ~~~mask.value host ∧
      network.value host &&& part.value host = 0 ∧
      network.value host ||| part.value host = address.value host ∧
      (∀ other : SockaddrIn, (network.value host).toNat ≤ (other.value host).toNat →
        (other.value host).toNat ≤ (broadcast.value host).toNat →
        (other.getNetworkAddress host prefixLen).map (value host) = some (network.value host) ∧
        (other.getBroadcastAddress host prefixLen).map (value host) =
          some (broadcast.value host)) ∧
      (∀ result ∈ [network, part, broadcast],
        result.port = address.port ∧ result.family = address.family) ∧
      getMaskLen mask.addr = prefixLen := by
  rcases subnetMask_eq host within with ⟨mask, maskGiven, maskValue, length⟩
  rcases network_eq host address within with ⟨network, networkGiven, networkValue, networkRest⟩
  rcases hostPart_eq host address within with ⟨part, partGiven, partValue, partRest⟩
  rcases broadcast_eq host address within with
    ⟨broadcast, broadcastGiven, broadcastValue, broadcastRest⟩
  refine ⟨mask, network, part, broadcast, maskGiven, networkGiven, partGiven, broadcastGiven, ?_,
    ?_, ?_, ?_, ?_, ?_, ?_, ?_, length⟩
  · intro index below
    rw [maskValue, getLsbD_prefixMask, decide_eq_decide]
    exact and_iff_left below
  · rw [networkValue, maskValue]
  · rw [partValue, maskValue]
  · rw [broadcastValue, maskValue]
  · rw [networkValue, partValue]
    exact and_and_and_not _ _
  · rw [networkValue, partValue, and_or_and_not]
  · intro other above below
    rw [networkValue] at above
    rw [broadcastValue] at below
    have same := same_prefix_of_between above below
    rcases network_eq host other within with ⟨otherNetwork, found, otherValue, _⟩
    rcases broadcast_eq host other within with ⟨otherBroadcast, reached, lastValue, _⟩
    rw [found, reached, Option.map_some, Option.map_some, otherValue, lastValue, networkValue,
      broadcastValue, or_not_mask (other.value host), or_not_mask (address.value host), same]
    exact ⟨rfl, rfl⟩
  · intro result member
    rcases List.mem_cons.mp member with same | member
    · exact same ▸ networkRest
    · rcases List.mem_cons.mp member with same | member
      · exact same ▸ partRest
      · exact List.mem_singleton.mp member ▸ broadcastRest

/-- An address of a home network. -/
theorem prefix_operations_example : ∃ mask network : SockaddrIn,
    getSubnetMask .little 24 = some mask ∧
    SockaddrIn.getNetworkAddress .little { addr := 0x0501A8C0#32 } 24 = some network ∧
    network.value .little = SockaddrIn.value .little { addr := 0x0501A8C0#32 } &&& mask.value .little ∧
    getMaskLen mask.addr = 24 := by
  rcases prefix_operations .little { addr := 0x0501A8C0#32 } 24 (by decide) with
    ⟨mask, network, _, _, maskGiven, networkGiven, _, _, _, value, _, _, _, _, _, _, length⟩
  exact ⟨mask, network, maskGiven, networkGiven, value, length⟩

end SockaddrIn

end Socket

end FiberNet
