import FiberNet.Foundation.Loops
import FiberNet.Socket.HostService
import FiberNet.Socket.Ipv6

/-! # The interfaces of the machine -/

namespace FiberNet

namespace Socket

/-- An element of the list that `getifaddrs` returns. The netmask is a structure of the same
family as the address, and is not read for other families. -/
inductive Ifaddrs
  | inet (name : List UInt8) (addr netmask : SockaddrIn) (named : addr.family = AF_INET)
  | inet6 (name : List UInt8) (addr netmask : SockaddrIn6) (named : addr.family = AF_INET6)
  | other (name : List UInt8) (addr : Sockaddr) (notInet : addr.family ≠ AF_INET)
      (notInet6 : addr.family ≠ AF_INET6)

namespace Ifaddrs

/-- `ifa_name`. -/
def name : Ifaddrs → List UInt8
  | inet name .. => name
  | inet6 name .. => name
  | other name .. => name

/-- `ifa_addr`. -/
def addr : Ifaddrs → SystemAddr
  | inet _ addr _ named => .inet addr named
  | inet6 _ addr _ named => .inet6 addr named
  | other _ addr notInet notInet6 => .other addr notInet notInet6

end Ifaddrs

structure InterfaceInfo where
  name : List UInt8
  addr : IAddress
  prefixLen : Nat
  deriving DecidableEq

/-- What `getInterfaceAddress` leaves: the entries of the map, under their keys, and how often
the list was freed. -/
structure Enumeration where
  returned : Bool
  result : List (List UInt8 × InterfaceInfo)
  freed : Nat

/-- The entry for an element whose family is one of the two. -/
def interfaceInfo (entry : Ifaddrs) : Option InterfaceInfo :=
  match entry with
  | .inet _ _ netmask _ =>
      some ⟨entry.name, entry.addr.newAddress, getMaskLen netmask.addr⟩
  | .inet6 _ _ netmask _ =>
      some ⟨entry.name, entry.addr.newAddress, getMaskLen6 netmask.addr⟩
  | .other .. => none

/-- The loop of `getInterfaceAddress`, and what follows it. -/
def interfaceLoop (family : Int) :
    Loop (List Ifaddrs × List (List UInt8 × InterfaceInfo)) Enumeration
  | ([], result) => .done { returned := true, result := result, freed := 1 }
  | (entry :: nxt, result) =>
      if family ≠ AF_UNSPEC.toNat ∧ family ≠ entry.addr.family.toNat then
        .again (entry :: nxt, result)
      else
        match interfaceInfo entry with
        | some info => .again (nxt, result ++ [(entry.name, info)])
        | none => .again (nxt, result)

/-- `getInterfaceAddress` with the list that `getifaddrs` returns, if it does. -/
def GetInterfaceAddress (getifaddrs : Option (List Ifaddrs)) (family : Int)
    (result : List (List UInt8 × InterfaceInfo)) (left : Enumeration) : Prop :=
  match getifaddrs with
  | none => left = { returned := false, result := result, freed := 0 }
  | some res => (interfaceLoop family).Returns (res, result) left

/-! ## What is to be found -/

/-- The family is the wanted one. -/
def Matches (family : Int) (entry : Ifaddrs) : Prop :=
  family = AF_UNSPEC.toNat ∨ family = entry.addr.family.toNat

instance (family : Int) (entry : Ifaddrs) : Decidable (Matches family entry) :=
  inferInstanceAs (Decidable (_ ∨ _))

variable (host : Endian)

/-- The bits of a netmask that are set are its high ones. -/
def Ifaddrs.Contiguous : Ifaddrs → Prop
  | inet _ _ netmask _ => ∃ length ≤ 32, netmask.value host = prefixMask 32 length
  | inet6 _ _ netmask _ => ∃ length ≤ 128, netmask.value = prefixMask 128 length
  | other .. => True

/-- The entry that an element is to have, with the number of bits of its mask. -/
def wanted : Ifaddrs → Option (List UInt8 × InterfaceInfo)
  | .inet name addr netmask _ =>
      some (name, ⟨name, .ipv4 addr, (setBits (netmask.value host)).card⟩)
  | .inet6 name addr netmask _ => some (name, ⟨name, .ipv6 addr, (setBits netmask.value).card⟩)
  | .other .. => none

/-- The enumeration ends with the wanted entries and a list that is freed. -/
def EnumeratesInterfaces (res : List Ifaddrs) (family : Int) : Prop :=
  ∃ left, GetInterfaceAddress (some res) family [] left ∧ left.returned = true ∧
    left.result = (res.filter fun entry => Matches family entry).filterMap (wanted host) ∧
    left.freed = 1

/-! ## Runs of the loop -/

section

variable {family : Int} {entry : Ifaddrs} {nxt : List Ifaddrs}
  {result : List (List UInt8 × InterfaceInfo)}

/-- The element is looked at forever. -/
theorem interfaceLoop_stays (other : ¬Matches family entry) :
    interfaceLoop family (entry :: nxt, result) = .again (entry :: nxt, result) := by
  rw [Matches, not_or] at other
  rw [interfaceLoop, if_pos other]

theorem interfaceLoop_next (same : Matches family entry) :
    interfaceLoop family (entry :: nxt, result) = .again (nxt,
      result ++ ((interfaceInfo entry).map fun info => (entry.name, info)).toList) := by
  have taken : ¬(family ≠ AF_UNSPEC.toNat ∧ family ≠ entry.addr.family.toNat) := by
    rw [not_and_or, not_not, not_not]
    exact same
  rw [interfaceLoop, if_neg taken]
  cases interfaceInfo entry with
  | none => simp
  | some info => rfl

/-- The loop returns if no element is skipped, and then with an entry for each of the two
families. -/
theorem interfaceLoop_returns_iff (res : List Ifaddrs)
    (result : List (List UInt8 × InterfaceInfo)) (left : Enumeration) :
    (interfaceLoop family).Returns (res, result) left ↔
      (∀ entry ∈ res, Matches family entry) ∧
        left = ⟨true, result ++ res.filterMap fun entry =>
          (interfaceInfo entry).map fun info => (entry.name, info), 1⟩ := by
  induction res generalizing result with
  | nil =>
      have ends : interfaceLoop family ([], result) = .done ⟨true, result, 1⟩ := rfl
      rw [Loop.returns_done ends, List.filterMap_nil, List.append_nil]
      simp
  | cons entry nxt induction =>
      by_cases same : Matches family entry
      · rw [Loop.returns_again (interfaceLoop_next same), induction, List.forall_mem_cons,
          and_iff_right same]
        cases found : interfaceInfo entry with
        | none => simp [found]
        | some info => simp [found]
      · constructor
        · intro returns
          exact absurd returns (Loop.not_returns_of_again (interfaceLoop_stays same) left)
        · intro both
          exact absurd (both.1 entry List.mem_cons_self) same

end

/-- An element has the entry it is to have. -/
theorem interfaceInfo_eq {entry : Ifaddrs} (contiguous : entry.Contiguous host) :
    ((interfaceInfo entry).map fun info => (entry.name, info)) = wanted host entry := by
  cases entry with
  | inet name addr netmask named =>
      have length : getMaskLen netmask.addr = (setBits (netmask.value host)).card := by
        rw [← getMaskLen_eq]
        exact (@getMaskLen_byteSwapOnLittleEndian host 4 netmask.addr).symm
      rw [interfaceInfo, Option.map_some, wanted, length]
      rfl
  | inet6 name addr netmask named =>
      rcases contiguous with ⟨length, within, mask⟩
      have counted : getMaskLen6 netmask.addr = (setBits netmask.value).card := by
        rw [getMaskLen6_eq within mask, mask, card_setBits_prefixMask within]
      rw [interfaceInfo, Option.map_some, wanted, counted]
      rfl
  | other name addr notInet notInet6 => rfl

/-- The enumeration is right if no element is skipped, and else does not end. -/
theorem enumeratesInterfaces_iff {res : List Ifaddrs} (family : Int)
    (contiguous : ∀ entry ∈ res, entry.Contiguous host) :
    EnumeratesInterfaces host res family ↔
      family = AF_UNSPEC.toNat ∨ ∀ entry ∈ res, family = entry.addr.family.toNat := by
  have all : (∀ entry ∈ res, Matches family entry) ↔
      family = AF_UNSPEC.toNat ∨ ∀ entry ∈ res, family = entry.addr.family.toNat := by
    by_cases any : family = AF_UNSPEC.toNat
    · simp [Matches, any]
    · simp [Matches, any]
  rw [← all]
  constructor
  · rintro ⟨left, returns, _⟩
    exact ((interfaceLoop_returns_iff res [] left).mp returns).1
  · intro same
    refine ⟨_, (interfaceLoop_returns_iff res [] _).mpr ⟨same, rfl⟩, rfl, ?_, rfl⟩
    rw [List.nil_append, List.filter_eq_self.mpr fun entry member =>
      decide_eq_true (same entry member)]
    apply List.filterMap_congr
    intro entry member
    exact interfaceInfo_eq host (contiguous entry member)

/-- The list of a machine with the loopback interface only. -/
theorem enumeratesInterfaces_loopback : EnumeratesInterfaces .little
    [.inet (Http.text "lo") { addr := 0x0100007F#32 } { addr := 0x000000FF#32 } rfl] 2 := by
  apply (enumeratesInterfaces_iff .little 2 ?_).mpr
  · right
    intro entry member
    rw [List.mem_singleton.mp member]
    rfl
  · intro entry member
    rw [List.mem_singleton.mp member]
    exact ⟨8, by decide, by decide⟩

/-- IPv6 addresses are asked for, and the interface has an IPv4 address. -/
theorem not_enumeratesInterfaces : ¬EnumeratesInterfaces .little
    [.inet (Http.text "lo") { addr := 0x0100007F#32 } { addr := 0x000000FF#32 } rfl] 10 := by
  rintro ⟨left, returns, _⟩
  exact Loop.not_returns_of_again (interfaceLoop_stays (by decide)) left returns

end Socket

end FiberNet
