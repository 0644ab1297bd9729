import FiberNet.Bytes.CodecRoundTrip
import Mathlib.Data.List.Lex
import Mathlib.Data.Set.Basic
import Mathlib.Order.Nat

/-! # Socket addresses

The addresses as the `sockaddr` structures that they store, and the comparison of the
stored bytes. `host` is the byte order of the machine.
-/

namespace FiberNet

/-! ## Network byte order -/

/-- The type of the stored words is `BitVec (8 * count)`. -/
def byteSwapOnLittleEndian (host : Endian) {w : Nat} (count : Nat) (value : BitVec w) :
    BitVec w :=
  match host with
  | .little => byteSwap count value
  | .big => value

/-- The position of a bit with the order of the bytes reversed. -/
def swappedBit (count index : Nat) : Nat :=
  8 * (count - 1 - index / 8) + index % 8

theorem swappedBit_lt {count index : Nat} (below : index < 8 * count) :
    swappedBit count index < 8 * count := by
  unfold swappedBit
  omega

theorem swappedBit_swappedBit {count index : Nat} (below : index < 8 * count) :
    swappedBit count (swappedBit count index) = index := by
  unfold swappedBit
  omega

theorem getLsbD_byteSwap {count index : Nat} (value : BitVec (8 * count))
    (below : index < 8 * count) :
    (byteSwap count value).getLsbD index = value.getLsbD (swappedBit count index) := by
  have byte : index / 8 < count := by omega
  have other : count - 1 - index / 8 < count := by omega
  have reversed : (toBytes count value.toNat).reverse.getD (index / 8) 0 =
      (toBytes count value.toNat).getD (count - 1 - index / 8) 0 := by
    rw [List.getD_eq_getElem?_getD, List.getD_eq_getElem?_getD, List.getElem?_reverse (by simpa),
      length_toBytes]
  rw [byteSwap, BitVec.getLsbD_ofNat, decide_eq_true below, Bool.true_and, testBit_ofBytes,
    reversed, getD_toBytes _ other, testBit_byte _ _ (Nat.mod_lt index (by decide)),
    BitVec.testBit_toNat]
  rfl

theorem byteSwap_and {count : Nat} (left right : BitVec (8 * count)) :
    byteSwap count (left &&& right) = byteSwap count left &&& byteSwap count right := by
  apply BitVec.eq_of_getLsbD_eq
  intro index below
  rw [BitVec.getLsbD_and, getLsbD_byteSwap _ below, getLsbD_byteSwap _ below,
    getLsbD_byteSwap _ below, BitVec.getLsbD_and]

theorem byteSwap_or {count : Nat} (left right : BitVec (8 * count)) :
    byteSwap count (left ||| right) = byteSwap count left ||| byteSwap count right := by
  apply BitVec.eq_of_getLsbD_eq
  intro index below
  rw [BitVec.getLsbD_or, getLsbD_byteSwap _ below, getLsbD_byteSwap _ below,
    getLsbD_byteSwap _ below, BitVec.getLsbD_or]

theorem byteSwap_not {count : Nat} (value : BitVec (8 * count)) :
    byteSwap count (~~~value) = ~~~byteSwap count value := by
  apply BitVec.eq_of_getLsbD_eq
  intro index below
  rw [BitVec.getLsbD_not, getLsbD_byteSwap _ below, getLsbD_byteSwap _ below, BitVec.getLsbD_not,
    decide_eq_true (swappedBit_lt below), decide_eq_true below]

section

variable (host : Endian) {count : Nat}

@[simp] theorem byteSwapOnLittleEndian_twice (value : BitVec (8 * count)) :
    byteSwapOnLittleEndian host count (byteSwapOnLittleEndian host count value) = value := by
  cases host with
  | little => exact byteSwap_byteSwap count value
  | big => rfl

theorem byteSwapOnLittleEndian_and (left right : BitVec (8 * count)) :
    byteSwapOnLittleEndian host count (left &&& right) =
      byteSwapOnLittleEndian host count left &&& byteSwapOnLittleEndian host count right := by
  cases host with
  | little => exact byteSwap_and left right
  | big => rfl

theorem byteSwapOnLittleEndian_or (left right : BitVec (8 * count)) :
    byteSwapOnLittleEndian host count (left ||| right) =
      byteSwapOnLittleEndian host count left ||| byteSwapOnLittleEndian host count right := by
  cases host with
  | little => exact byteSwap_or left right
  | big => rfl

theorem byteSwapOnLittleEndian_not (value : BitVec (8 * count)) :
    byteSwapOnLittleEndian host count (~~~value) =
      ~~~byteSwapOnLittleEndian host count value := by
  cases host with
  | little => exact byteSwap_not value
  | big => rfl

end

/-! ## Stored addresses -/

namespace Socket

def AF_UNSPEC : BitVec 16 := 0
def AF_UNIX : BitVec 16 := 1
def AF_INET : BitVec 16 := 2
def AF_INET6 : BitVec 16 := 10

/-- The words are stored as they lie in memory: port and address in network order. -/
structure SockaddrIn where
  family : BitVec 16 := AF_INET
  port : BitVec 16 := 0
  addr : BitVec 32 := 0
  zero : Vector UInt8 8 := .replicate 8 0
  deriving DecidableEq

structure SockaddrIn6 where
  family : BitVec 16 := AF_INET6
  port : BitVec 16 := 0
  flowinfo : BitVec 32 := 0
  addr : Vector UInt8 16 := .replicate 16 0
  scopeId : BitVec 32 := 0
  deriving DecidableEq

structure SockaddrUn where
  family : BitVec 16 := AF_UNIX
  path : Vector UInt8 108 := .replicate 108 0
  deriving DecidableEq

structure Sockaddr where
  family : BitVec 16 := AF_UNSPEC
  data : Vector UInt8 14 := .replicate 14 0
  deriving DecidableEq

/-- `offsetof(sockaddr_un, sun_path)`. -/
def pathOffset : UInt32 := 2

/-- `m_len` is whatever it was set to. -/
structure UnixAddress where
  addr : SockaddrUn
  len : UInt32
  deriving DecidableEq

namespace UnixAddress

/-- `UnixAddress()`. -/
def empty : UnixAddress where
  addr := {}
  len := pathOffset + 107

/-- `UnixAddress(path)`, where `none` is the exception for a long path. The length is cut to a
`socklen_t` before it is checked. -/
def ofPath (path : List UInt8) : Option UnixAddress :=
  let terminated := UInt32.ofNat (path.length + 1)
  let len := if path.head? = some 0 then terminated - 1 else terminated
  if 108 < len then none
  else some {
    addr := { path := .ofFn fun index => (path.take len.toNat).getD index.val 0 }
    len := len + pathOffset }

def setAddrLen (address : UnixAddress) (len : UInt32) : UnixAddress :=
  { address with len }

/-- `getPeerAddr` and `getLocalAddr` of a socket with a name: the kernel writes what fits into
the length of `UnixAddress()` and reports the length of the whole name. -/
def ofName (path : List UInt8) : UnixAddress :=
  { empty with addr := { path := .ofFn fun index => (path.take 107).getD index.val 0 } }.setAddrLen
    (pathOffset + UInt32.ofNat path.length)

end UnixAddress

inductive IAddress
  | ipv4 (addr : SockaddrIn)
  | ipv6 (addr : SockaddrIn6)
  | unix (address : UnixAddress)
  | unknown (addr : Sockaddr)
  deriving DecidableEq

namespace IAddress

def getAddrLen : IAddress → Nat
  | ipv4 _ => 16
  | ipv6 _ => 28
  | unix address => address.len.toNat
  | unknown _ => 16

/-- `sizeof(m_addr)`. -/
def size : IAddress → Nat
  | ipv4 _ => 16
  | ipv6 _ => 28
  | unix _ => 110
  | unknown _ => 16

/-- The bytes behind the pointer that `getAddr` returns, to the end of the structure. -/
def getAddr (host : Endian) : IAddress → List UInt8
  | ipv4 addr =>
      memory host 2 addr.family ++ memory host 2 addr.port ++ memory host 4 addr.addr ++
        addr.zero.toList
  | ipv6 addr =>
      memory host 2 addr.family ++ memory host 2 addr.port ++ memory host 4 addr.flowinfo ++
        addr.addr.toList ++ memory host 4 addr.scopeId
  | unix address => memory host 2 address.addr.family ++ address.addr.path.toList
  | unknown addr => memory host 2 addr.family ++ addr.data.toList

@[simp] theorem length_getAddr (host : Endian) (address : IAddress) :
    (address.getAddr host).length = address.size := by
  cases address <;> simp [getAddr, size]

def getFamily : IAddress → BitVec 16
  | ipv4 addr => addr.family
  | ipv6 addr => addr.family
  | unix address => address.addr.family
  | unknown addr => addr.family

/-- The stored bytes that count. -/
def stored (host : Endian) (address : IAddress) : List UInt8 :=
  (address.getAddr host).take address.getAddrLen

/-- The length stays inside of the structure. -/
def InBounds (address : IAddress) : Prop :=
  address.getAddrLen ≤ address.size

instance (address : IAddress) : Decidable address.InBounds :=
  inferInstanceAs (Decidable (_ ≤ _))

/-- Only a `UnixAddress` can have a length beyond its structure. -/
theorem inBounds_iff (address : IAddress) :
    address.InBounds ↔ ∀ unix, address = .unix unix → unix.len.toNat ≤ 110 := by
  cases address with
  | ipv4 addr => exact iff_of_true (Nat.le_refl 16) nofun
  | ipv6 addr => exact iff_of_true (Nat.le_refl 28) nofun
  | unix address =>
      constructor
      · rintro inside _ ⟨⟩
        exact inside
      · intro inside
        exact inside address rfl
  | unknown addr => exact iff_of_true (Nat.le_refl 16) nofun

theorem inBounds_empty : (unix .empty).InBounds := by
  decide

/-- The constructors do not make one. -/
theorem inBounds_ofPath {path : List UInt8} {address : UnixAddress}
    (made : UnixAddress.ofPath path = some address) : (unix address).InBounds := by
  unfold UnixAddress.ofPath at made
  dsimp only at made
  generalize (if path.head? = some 0 then UInt32.ofNat (path.length + 1) - 1
    else UInt32.ofNat (path.length + 1)) = len at made
  split at made
  · cases made
  · rename_i short
    cases made
    have below : len.toNat ≤ 108 := UInt32.le_iff_toNat_le.mp (UInt32.not_lt.mp short)
    change (len + pathOffset).toNat ≤ 110
    rw [UInt32.toNat_add, show pathOffset.toNat = 2 from rfl]
    omega

theorem InBounds.length_stored {address : IAddress} (inside : address.InBounds)
    (host : Endian) : (address.stored host).length = address.getAddrLen := by
  rw [stored, List.length_take, length_getAddr, Nat.min_eq_left inside]

/-! ## Comparison -/

/-- The difference of the first bytes that differ. -/
def memcmp : List UInt8 → List UInt8 → Nat → Int
  | left :: lefts, right :: rights, len + 1 =>
      if left = right then memcmp lefts rights len else (left.toNat : Int) - right.toNat
  | _, _, _ => 0

variable (host : Endian)

/-- `memcmp(getAddr(),rhs.getAddr(),len)`. It is undefined where a structure has less bytes. -/
def compared (left right : IAddress) (len : Nat) : Option Int :=
  if len ≤ left.size ∧ len ≤ right.size then
    some (memcmp (left.getAddr host) (right.getAddr host) len)
  else none

/-- `operator<`. -/
def less (left right : IAddress) : Option Bool := do
  let len := min left.getAddrLen right.getAddrLen
  let res ← left.compared host right len
  if res < 0 then some true
  else if res > 0 then some false
  else if left.getAddrLen < right.getAddrLen then some true
  else some false

/-- `operator==`. -/
def equal (left right : IAddress) : Option Bool :=
  if left.getAddrLen ≠ right.getAddrLen then some false
  else do
    let len := min left.getAddrLen right.getAddrLen
    let res ← left.compared host right len
    some (res = 0)

/-- `operator!=`. -/
def notEqual (left right : IAddress) : Option Bool :=
  (left.equal host right).map (!·)

/-- `operator>`. -/
def greater (left right : IAddress) : Option Bool := do
  if ← left.less host right then some false else left.notEqual host right

/-- The order that the comparisons decide. -/
def rank (address : IAddress) : List Nat :=
  (address.stored host).map UInt8.toNat

theorem memcmp_take : ∀ (left right : List UInt8) (len : Nat),
    memcmp left right len = memcmp (left.take len) (right.take len) len
  | [], [], len => by rw [List.take_nil]
  | [], _ :: _, len => by rw [List.take_nil]; rfl
  | _ :: _, [], len => by rw [List.take_nil]; simp [memcmp]
  | _ :: _, _ :: _, 0 => rfl
  | left :: lefts, right :: rights, len + 1 => by
      rw [List.take_succ_cons, List.take_succ_cons, memcmp, memcmp, ← memcmp_take lefts rights len]

/-- The bytes of the shorter one decide, then the lengths. -/
theorem lt_iff_memcmp : ∀ left right : List UInt8,
    (left.map UInt8.toNat < right.map UInt8.toNat ↔
      memcmp left right (min left.length right.length) < 0 ∨
        memcmp left right (min left.length right.length) = 0 ∧ left.length < right.length)
  | [], [] => by simp [memcmp]
  | [], right :: rights => by simp [memcmp]
  | left :: lefts, [] => by simp [memcmp]
  | left :: lefts, right :: rights => by
      have rest := lt_iff_memcmp lefts rights
      rw [List.map_cons, List.map_cons, List.length_cons, List.length_cons, Nat.succ_min_succ,
        memcmp, List.cons_lt_cons_iff, rest]
      by_cases same : left = right
      · simp [same]
      · have differ : left.toNat ≠ right.toNat := fun equal => same (UInt8.toNat_inj.mp equal)
        simp only [if_neg same, differ, false_and, or_false]
        omega

theorem memcmp_eq_zero_iff : ∀ {left right : List UInt8}, left.length = right.length →
    (memcmp left right left.length = 0 ↔ left = right)
  | [], [], _ => by simp [memcmp]
  | left :: lefts, right :: rights, lengths => by
      have rest := memcmp_eq_zero_iff (Nat.succ.inj lengths)
      rw [List.length_cons, memcmp]
      by_cases same : left = right
      · simp [same, rest]
      · have differ : left.toNat ≠ right.toNat := fun equal => same (UInt8.toNat_inj.mp equal)
        rw [if_neg same]
        simp only [List.cons.injEq, same, false_and, iff_false]
        omega

section

variable {host} {left right : IAddress} (leftInside : left.InBounds)
  (rightInside : right.InBounds)

include leftInside rightInside in
theorem compared_stored :
    left.compared host right (min left.getAddrLen right.getAddrLen) =
      some (memcmp (left.stored host) (right.stored host)
        (min left.getAddrLen right.getAddrLen)) := by
  have leftRoom : min left.getAddrLen right.getAddrLen ≤ left.size :=
    (Nat.min_le_left _ _).trans leftInside
  have rightRoom : min left.getAddrLen right.getAddrLen ≤ right.size :=
    (Nat.min_le_right _ _).trans rightInside
  rw [compared, if_pos ⟨leftRoom, rightRoom⟩, memcmp_take, memcmp_take (left.stored host), stored,
    stored, List.take_take, List.take_take, Nat.min_eq_left (Nat.min_le_left _ _),
    Nat.min_eq_left (Nat.min_le_right _ _)]

theorem rank_inj : left.rank host = right.rank host ↔ left.stored host = right.stored host := by
  rw [rank, rank]
  apply List.map_inj_right
  intro first second same
  exact UInt8.toNat_inj.mp same

include leftInside rightInside

theorem less_eq :
    left.less host right = some (decide (left.rank host < right.rank host)) := by
  have order : left.rank host < right.rank host ↔ _ := lt_iff_memcmp _ _
  rw [leftInside.length_stored, rightInside.length_stored] at order
  simp only [less, compared_stored leftInside rightInside, Option.bind_eq_bind, Option.bind_some]
  revert order
  generalize memcmp (left.stored host) (right.stored host) _ = res
  intro order
  by_cases negative : res < 0
  · simp [negative, order]
  · by_cases positive : res > 0
    · simp [negative, positive, order, show res ≠ 0 by omega]
    · by_cases shorter : left.getAddrLen < right.getAddrLen
      · simp [order, shorter, show res = 0 by omega]
      · simp [order, shorter, show res = 0 by omega]

theorem equal_eq :
    left.equal host right = some (decide (left.stored host = right.stored host)) := by
  have leftLength := leftInside.length_stored host
  have rightLength := rightInside.length_stored host
  rw [equal]
  by_cases lengths : left.getAddrLen = right.getAddrLen
  · have same : (left.stored host).length = (right.stored host).length := by
      rw [leftLength, rightLength, lengths]
    have zero := memcmp_eq_zero_iff same
    rw [leftLength] at zero
    rw [if_neg (not_not.mpr lengths)]
    simp only [compared_stored leftInside rightInside, Option.bind_eq_bind, Option.bind_some]
    rw [← lengths, Nat.min_self]
    simp only [zero]
  · have different : left.stored host ≠ right.stored host := by
      intro same
      rw [same, rightLength] at leftLength
      exact lengths leftLength.symm
    simp [lengths, different]

theorem equal_eq_rank :
    left.equal host right = some (decide (left.rank host = right.rank host)) := by
  rw [equal_eq leftInside rightInside]
  simp only [rank_inj]

theorem greater_eq :
    left.greater host right = some (decide (right.rank host < left.rank host)) := by
  simp only [greater, notEqual, less_eq leftInside rightInside,
    equal_eq_rank leftInside rightInside, Option.bind_eq_bind, Option.bind_some, Option.map_some]
  rcases lt_trichotomy (left.rank host) (right.rank host) with below | same | above
  · simp [below, below.asymm]
  · simp [same]
  · simp [above, above.asymm, above.ne']

end

/-- The comparison is a strict total order of the keys, with equality of the stored bytes for
its equality. -/
structure Orders (host : Endian) (keys : Set IAddress) : Prop where
  /-- Exactly one of the three. -/
  trichotomy : ∀ left ∈ keys, ∀ right ∈ keys,
    (left.less host right = some true ∧ left.equal host right = some false ∧
        left.greater host right = some false) ∨
      (left.less host right = some false ∧ left.equal host right = some true ∧
        left.greater host right = some false) ∨
      (left.less host right = some false ∧ left.equal host right = some false ∧
        left.greater host right = some true)
  converse : ∀ left ∈ keys, ∀ right ∈ keys, left.less host right = right.greater host left
  trans : ∀ left ∈ keys, ∀ middle ∈ keys, ∀ right ∈ keys,
    left.less host middle = some true → middle.less host right = some true →
      left.less host right = some true
  equivalence : Equivalence fun left right : keys => left.1.equal host right.1 = some true
  bytes : ∀ left ∈ keys, ∀ right ∈ keys, left.equal host right = some true ↔
    left.getAddrLen = right.getAddrLen ∧ left.stored host = right.stored host

theorem orders_of_inBounds {keys : Set IAddress} (inside : ∀ key ∈ keys, key.InBounds) :
    Orders host keys where
  trichotomy := by
    intro left leftKey right rightKey
    rw [less_eq (inside left leftKey) (inside right rightKey),
      equal_eq_rank (inside left leftKey) (inside right rightKey),
      greater_eq (inside left leftKey) (inside right rightKey)]
    rcases lt_trichotomy (left.rank host) (right.rank host) with below | same | above
    · exact .inl (by simp [below, below.ne, below.asymm])
    · exact .inr (.inl (by simp [same]))
    · exact .inr (.inr (by simp [above, above.ne', above.asymm]))
  converse := by
    intro left leftKey right rightKey
    rw [less_eq (inside left leftKey) (inside right rightKey),
      greater_eq (inside right rightKey) (inside left leftKey)]
  trans := by
    intro left leftKey middle middleKey right rightKey
    rw [less_eq (inside left leftKey) (inside middle middleKey),
      less_eq (inside middle middleKey) (inside right rightKey),
      less_eq (inside left leftKey) (inside right rightKey)]
    simp only [Option.some.injEq, decide_eq_true_iff]
    exact lt_trans
  equivalence := by
    have same : (fun left right : keys => left.1.equal host right.1 = some true) =
        fun left right : keys => left.1.stored host = right.1.stored host := by
      funext left right
      rw [equal_eq (inside left.1 left.2) (inside right.1 right.2)]
      simp
    rw [same]
    exact ⟨fun _ => rfl, Eq.symm, Eq.trans⟩
  bytes := by
    intro left leftKey right rightKey
    have leftLength := (inside left leftKey).length_stored host
    have rightLength := (inside right rightKey).length_stored host
    rw [equal_eq (inside left leftKey) (inside right rightKey)]
    simp only [Option.some.injEq, decide_eq_true_iff]
    constructor
    · intro same
      rw [same, rightLength] at leftLength
      exact ⟨leftLength.symm, same⟩
    · exact And.right

/-- An address that is compared with itself is read to its length. -/
theorem inBounds_of_equal {address : IAddress}
    (same : address.equal host address = some true) : address.InBounds := by
  rw [equal, if_neg (not_not.mpr rfl)] at same
  rcases Option.bind_eq_some_iff.mp same with ⟨res, compares, _⟩
  rcases Option.ite_none_right_eq_some.mp compares with ⟨⟨room, _⟩, _⟩
  rwa [Nat.min_self] at room

/-- The comparison is a strict total order of exactly those keys whose lengths stay inside of
their structures. -/
theorem orders_iff (host : Endian) (keys : Set IAddress) :
    Orders host keys ↔ ∀ key ∈ keys, key.InBounds := by
  constructor
  · intro orders key member
    exact inBounds_of_equal host (orders.equivalence.refl ⟨key, member⟩)
  · exact orders_of_inBounds host

/-- The name of a socket that is bound to a path of 108 bytes, for which the kernel reports a
NUL behind it. -/
def longName : IAddress :=
  .unix (.ofName (List.replicate 108 97 ++ [0]))

theorem not_orders : ¬∀ (host : Endian) (keys : Set IAddress), Orders host keys := by
  intro orders
  have same := (orders .little {longName}).equivalence.refl ⟨longName, rfl⟩
  exact absurd (inBounds_of_equal .little same) (by decide)

end IAddress

end Socket

end FiberNet
