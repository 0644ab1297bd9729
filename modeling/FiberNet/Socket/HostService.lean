import FiberNet.Socket.Ipv6Text

/-! # Resolving hosts -/

namespace FiberNet

namespace Socket

open Http (text)

/-! ## Addresses of the system -/

/-- What a `sockaddr*` that the system returns points to. -/
inductive SystemAddr
  | inet (addr : SockaddrIn) (named : addr.family = AF_INET)
  | inet6 (addr : SockaddrIn6) (named : addr.family = AF_INET6)
  | other (addr : Sockaddr) (notInet : addr.family ≠ AF_INET) (notInet6 : addr.family ≠ AF_INET6)

namespace SystemAddr

/-- `sa_family`. -/
def family : SystemAddr → BitVec 16
  | inet addr _ => addr.family
  | inet6 addr _ => addr.family
  | other addr _ _ => addr.family

/-- `IAddress::newAddress`. -/
def newAddress : SystemAddr → IAddress
  | inet addr _ => .ipv4 addr
  | inet6 addr _ => .ipv6 addr
  | other addr _ _ => .unknown addr

end SystemAddr

/-! ## Splitting a host -/

/-- A use of pointers or numbers that has no meaning. -/
inductive HostFault
  | outside
  | overflow
  deriving DecidableEq

/-- What a pointer to characters stands for. -/
def cString (bytes : List UInt8) : List UInt8 :=
  bytes.takeWhile (· ≠ 0)

/-- The offset that `memchr` finds. -/
def memchr (byte : UInt8) (bytes : List UInt8) : Option Nat :=
  bytes.findIdx? (· = byte)

/-- `(uint32_t)(iv + steps)` for the `int` with the low bits of an offset. The sum of an `int` has
no meaning when it overflows. -/
def offsetPlus (offset steps : Nat) : Except HostFault Nat :=
  let iv := offset % 2 ^ 32
  if iv < 2 ^ 31 ∧ 2 ^ 31 ≤ iv + steps then .error .overflow else .ok ((iv + steps) % 2 ^ 32)

/-- A character behind `c_str()`, at most the NUL. -/
def charAt (host : List UInt8) (offset : Nat) : Except HostFault UInt8 :=
  if offset ≤ host.length then .ok (host.getD offset 0) else .error .outside

/-- The string that a pointer into `c_str()` stands for. -/
def pointed (host : List UInt8) (offset : Nat) : Except HostFault (List UInt8) :=
  if offset ≤ host.length then .ok (cString (host.drop offset)) else .error .outside

/-- The first pass: the node, and the offset of the service. -/
def bracketPass (host : List UInt8) : Except HostFault (List UInt8 × Option Nat) :=
  if host.head? = some 93 then
    match memchr 93 host with
    | some pos => do
        let inside ← offsetPlus pos 2
        let service ←
          if inside < host.length then do
            let char ← charAt host (pos + 1)
            pure (if char = 58 then some (pos + 2) else none)
          else pure none
        -- The count of `substr` is a `size_t`.
        return ((host.drop 1).take ((pos + (2 ^ 64 - 1)) % 2 ^ 64), service)
    | none => return ([], none)
  else return ([], none)

/-- The second pass, for a node that is still empty. -/
def colonPass (host : List UInt8) : Except HostFault (List UInt8 × Option Nat) :=
  match memchr 58 host with
  | some pos => do
      let next ← offsetPlus pos 1
      if next < host.length then return (host.take pos, some (pos + 1)) else return ([], none)
  | none => return ([], none)

/-- The arguments of `getaddrinfo`, of which the node is the host if it is empty. -/
def arguments (host node : List UInt8) :
    Option Nat → Except HostFault (List UInt8 × Option (List UInt8))
  | some offset => do
      let service ← pointed host offset
      return (cString (if node.isEmpty then host else node), some service)
  | none => return (cString (if node.isEmpty then host else node), none)

/-- The node and the service that `newAddressByHost` passes to `getaddrinfo`. -/
def splitHost (host : List UInt8) : Except HostFault (List UInt8 × Option (List UInt8)) := do
  let (node, service) ← bracketPass host
  let (node, service) ← if node.isEmpty then colonPass host else pure (node, service)
  arguments host node service

structure Hints where
  family : Int
  sockType : Int
  protocol : Int

/-- `newAddressByHost` with any `getaddrinfo`, whose failure is `none`. -/
def newAddressByHost
    (getaddrinfo : List UInt8 → Option (List UInt8) → Hints → Option (List SystemAddr))
    (res : List IAddress) (host : List UInt8) (any : Bool) (hints : Hints) :
    Except HostFault (Bool × List IAddress) := do
  let (node, service) ← splitHost host
  match getaddrinfo node service hints with
  | none => return (false, res)
  | some found =>
      return (true, res ++ (if any then found.take 1 else found).map SystemAddr.newAddress)

/-! ## The passes -/

theorem memchr_append {byte : UInt8} {before : List UInt8} (absent : byte ∉ before)
    (behind : List UInt8) : memchr byte (before ++ byte :: behind) = some before.length := by
  have none : before.findIdx? (· = byte) = none := by
    rw [List.findIdx?_eq_none_iff]
    intro other member
    simp only [decide_eq_false_iff_not]
    intro same
    exact absent (same ▸ member)
  rw [memchr, List.findIdx?_append, none, List.findIdx?_cons]
  simp

theorem memchr_eq_none {byte : UInt8} {bytes : List UInt8} (absent : byte ∉ bytes) :
    memchr byte bytes = none := by
  rw [memchr, List.findIdx?_eq_none_iff]
  intro other member
  simp only [decide_eq_false_iff_not]
  intro same
  exact absent (same ▸ member)

theorem memchr_lt {byte : UInt8} {bytes : List UInt8} {pos : Nat}
    (found : memchr byte bytes = some pos) : pos < bytes.length := by
  rcases List.findIdx?_eq_some_iff_getElem.mp found with ⟨below, _⟩
  exact below

/-- Offsets whose `int` is the greatest have no successor. -/
theorem offsetPlus_one (offset : Nat) :
    (offset % 2 ^ 32 = 2 ^ 31 - 1 ∧ offsetPlus offset 1 = .error .overflow) ∨
      (offset % 2 ^ 32 ≠ 2 ^ 31 - 1 ∧
        ∃ next, offsetPlus offset 1 = .ok next ∧ next ≤ offset + 1) := by
  unfold offsetPlus
  simp only
  split
  · refine .inl ⟨?_, rfl⟩
    omega
  · refine .inr ⟨?_, _, rfl, ?_⟩
    · omega
    · omega

theorem bracketPass_other {host : List UInt8} (head : host.head? ≠ some 93) :
    bracketPass host = .ok ([], none) := by
  rw [bracketPass, if_neg head]
  rfl

/-- The only bracket that is looked for is the first character itself. -/
theorem bracketPass_bracket (rest : List UInt8) :
    ∃ node service, bracketPass (93 :: rest) = .ok (node, service) ∧
      ∀ offset, service = some offset → offset ≤ (93 :: rest).length := by
  have found : memchr 93 (93 :: rest) = some 0 := rfl
  have inside : offsetPlus 0 2 = .ok 2 := by decide
  rw [bracketPass, List.head?_cons, if_pos rfl, found]
  simp only [bind, Except.bind, pure, Except.pure, inside]
  split
  · rename_i below
    have inside : 0 + 1 ≤ (93 :: rest).length := by omega
    rw [charAt, if_pos inside]
    refine ⟨_, _, rfl, ?_⟩
    intro offset same
    split at same
    · cases same
      exact below.le
    · cases same
  · refine ⟨_, _, rfl, ?_⟩
    intro offset same
    cases same

theorem colonPass_cases (host : List UInt8) :
    colonPass host = .error .overflow ∨
      ∃ node service, colonPass host = .ok (node, service) ∧
        ∀ offset, service = some offset → offset ≤ host.length := by
  rw [colonPass]
  split
  · rename_i pos found
    have below := memchr_lt found
    rcases offsetPlus_one pos with ⟨_, overflow⟩ | ⟨_, next, fits, _⟩
    · left
      rw [overflow]
      rfl
    · right
      rw [fits]
      simp only [bind, Except.bind, pure, Except.pure]
      split
      · refine ⟨_, _, rfl, ?_⟩
        intro offset same
        cases same
        exact below
      · refine ⟨_, _, rfl, ?_⟩
        intro offset same
        cases same
  · refine .inr ⟨_, _, rfl, ?_⟩
    intro offset same
    cases same

/-- A host without a colon is the node. -/
theorem splitHost_plain {host : List UInt8} (head : host.head? ≠ some 93) (absent : 58 ∉ host) :
    splitHost host = .ok (cString host, none) := by
  rw [splitHost, bracketPass_other head]
  simp only [bind, Except.bind, pure, Except.pure, colonPass, memchr_eq_none absent,
    List.isEmpty_nil, if_true, arguments]

/-- A host is split at its first colon, if something follows. -/
theorem splitHost_colon {before behind : List UInt8}
    (head : (before ++ 58 :: behind).head? ≠ some 93) (absent : 58 ∉ before)
    (nonempty : behind ≠ []) :
    splitHost (before ++ 58 :: behind) =
      if before.length % 2 ^ 32 = 2 ^ 31 - 1 then .error .overflow
      else .ok (cString (if before.isEmpty then before ++ 58 :: behind else before),
        some (cString behind)) := by
  have positive := List.length_pos_iff.mpr nonempty
  have length : (before ++ 58 :: behind).length = before.length + behind.length + 1 := by
    rw [List.length_append, List.length_cons, Nat.add_assoc]
  have reached : pointed (before ++ 58 :: behind) (before.length + 1) = .ok (cString behind) := by
    rw [pointed, if_pos (by omega), ← List.drop_drop, List.drop_left]
    rfl
  rw [splitHost, bracketPass_other head]
  rcases offsetPlus_one before.length with ⟨greatest, overflow⟩ | ⟨other, next, fits, near⟩
  · rw [if_pos greatest]
    simp only [bind, Except.bind, colonPass, memchr_append absent, overflow, List.isEmpty_nil,
      if_true]
  · have inside : next < (before ++ 58 :: behind).length := by omega
    rw [if_neg other]
    simp only [bind, Except.bind, pure, Except.pure, colonPass, memchr_append absent, fits,
      List.isEmpty_nil, if_true, if_pos inside, List.take_left, arguments, reached]

theorem arguments_inside {host : List UInt8} (node : List UInt8) {service : Option Nat}
    (within : ∀ offset, service = some offset → offset ≤ host.length) :
    arguments host node service ≠ .error .outside := by
  cases service with
  | none =>
      intro same
      cases same
  | some offset =>
      rw [arguments, pointed, if_pos (within offset rfl)]
      intro same
      cases same

/-- No character outside of the host is read. -/
theorem splitHost_inside (host : List UInt8) : splitHost host ≠ .error .outside := by
  have first : ∃ node service, bracketPass host = .ok (node, service) ∧
      ∀ offset, service = some offset → offset ≤ host.length := by
    by_cases head : host.head? = some 93
    · rcases List.head?_eq_some_iff.mp head with ⟨rest, rfl⟩
      exact bracketPass_bracket rest
    · refine ⟨[], none, bracketPass_other head, ?_⟩
      intro offset same
      cases same
  rcases first with ⟨node, service, passed, within⟩
  rw [splitHost, passed]
  simp only [bind, Except.bind, pure, Except.pure]
  by_cases empty : node.isEmpty = true
  · rw [if_pos empty]
    rcases colonPass_cases host with overflow | ⟨node, service, split, within⟩
    · rw [overflow]
      intro same
      cases same
    · rw [split]
      exact arguments_inside node within
  · rw [if_neg empty]
    exact arguments_inside node within

/-! ## The shapes of a host -/

theorem cString_eq_self {bytes : List UInt8} : cString bytes = bytes ↔ 0 ∉ bytes := by
  rw [cString, List.takeWhile_eq_self_iff]
  constructor
  · intro all member
    exact absurd (all 0 member) (by decide)
  · intro absent byte member
    simp only [ne_eq, decide_not, Bool.not_eq_true', decide_eq_false_iff_not]
    intro same
    exact absent (same ▸ member)

/-- What holds of every IPv6 text. -/
def HasTwoColons (v : List UInt8) : Prop :=
  2 ≤ v.count 58 ∧ 91 ∉ v ∧ 93 ∉ v

theorem HasTwoColons.split {v : List UInt8} (colons : HasTwoColons v) :
    ∃ before behind, v = before ++ 58 :: behind ∧ 58 ∉ before ∧ 58 ∈ behind := by
  have member : 58 ∈ v := by
    rw [← List.count_pos_iff]
    have two := colons.1
    omega
  rcases List.eq_append_cons_of_mem member with ⟨before, behind, rfl, absent⟩
  refine ⟨before, behind, rfl, absent, ?_⟩
  have two := colons.1
  rw [List.count_append, List.count_eq_zero.mpr absent, List.count_cons_self] at two
  rw [← List.count_pos_iff]
  omega

theorem hasTwoColons_of_isIpv6Text {v : List UInt8} (valid : IsIpv6Text v) :
    HasTwoColons v := by
  have digits {groups : List (List UInt8)}
      (all : ∀ group ∈ groups, IsGroup group) (bracket : UInt8) (other : bracket ≠ 58)
      (noHex : Http.isHex bracket = false) : bracket ∉ GroupText.join 58 groups := by
    intro member
    rcases GroupText.mem_join member with same | ⟨group, listed, inside⟩
    · exact other same
    · rw [(all group listed).2.2 bracket inside] at noHex
      cases noHex
  rcases valid with ⟨groups, eight, all, rfl⟩ | ⟨before, behind, _, all, rfl⟩
  · have many := @GroupText.length_le_count_join _ 58 _ groups
    exact ⟨by omega, digits all 91 (by decide) (by decide), digits all 93 (by decide) (by decide)⟩
  · have bracketless (bracket : UInt8) (other : bracket ≠ 58)
        (noHex : Http.isHex bracket = false) :
        bracket ∉ GroupText.join 58 before ++ 58 :: 58 :: GroupText.join 58 behind := by
      have inBefore := digits (fun group member => all group (List.mem_append_left _ member))
        bracket other noHex
      have inBehind := digits (fun group member => all group (List.mem_append_right _ member))
        bracket other noHex
      simp [inBefore, inBehind, other]
    refine ⟨?_, bracketless 91 (by decide) (by decide), bracketless 93 (by decide) (by decide)⟩
    rw [List.count_append, List.count_cons_self, List.count_cons_self]
    omega

/-- A host without colons and brackets. -/
structure IsHostName (h : List UInt8) : Prop where
  noColon : 58 ∉ h
  noOpening : 91 ∉ h
  noClosing : 93 ∉ h

/-- The five shapes of a host. -/
def SplitsShapes (h v s : List UInt8) : Prop :=
  splitHost h = .ok (h, none) ∧
  splitHost (h ++ 58 :: s) = .ok (h, some s) ∧
  splitHost (91 :: v ++ [93]) = .ok (v, none) ∧
  splitHost (91 :: v ++ 93 :: 58 :: s) = .ok (v, some s) ∧
  splitHost v = .ok (v, none)

theorem head?_ne_of_notMem {byte : UInt8} {bytes : List UInt8} (absent : byte ∉ bytes) :
    bytes.head? ≠ some byte := by
  intro head
  exact absent (List.mem_of_head? head)

theorem splitHost_name_iff {h : List UInt8} (name : IsHostName h) :
    splitHost h = .ok (h, none) ↔ 0 ∉ h := by
  rw [splitHost_plain (head?_ne_of_notMem name.noClosing) name.noColon, ← cString_eq_self]
  simp

theorem splitHost_service_iff {h s : List UInt8} (name : IsHostName h) (nonempty : s ≠ []) :
    splitHost (h ++ 58 :: s) = .ok (h, some s) ↔
      h ≠ [] ∧ 0 ∉ h ∧ 0 ∉ s ∧ h.length % 2 ^ 32 ≠ 2 ^ 31 - 1 := by
  have head : (h ++ 58 :: s).head? ≠ some 93 := by
    cases h with
    | nil => simp
    | cons first rest => exact @head?_ne_of_notMem 93 (first :: rest) name.noClosing
  rw [splitHost_colon head name.noColon nonempty]
  split
  · rename_i greatest
    constructor
    · intro same
      cases same
    · intro condition
      exact absurd greatest condition.2.2.2
  · rename_i other
    rw [Except.ok.injEq, Prod.mk.injEq, Option.some.injEq, @cString_eq_self s]
    cases h with
    | nil => simp [cString]
    | cons first rest =>
        rw [List.isEmpty_cons, if_neg Bool.false_ne_true, cString_eq_self]
        constructor
        · intro both
          exact ⟨List.cons_ne_nil first rest, both.1, both.2, other⟩
        · intro condition
          exact ⟨condition.2.1, condition.2.2.1⟩

/-- The brackets of an IPv6 text are not looked for. -/
theorem splitHost_bracket_ne {v : List UInt8} (colons : HasTwoColons v) (rest : List UInt8)
    (service : Option (List UInt8)) : splitHost (91 :: v ++ 93 :: rest) ≠ .ok (v, service) := by
  rcases colons.split with ⟨before, behind, rfl, absent, _⟩
  have shape : 91 :: (before ++ 58 :: behind) ++ 93 :: rest =
      (91 :: before) ++ 58 :: (behind ++ 93 :: rest) := by
    simp
  have apart : 58 ∉ 91 :: before := by
    rw [List.mem_cons, not_or]
    exact ⟨by decide, absent⟩
  rw [shape, splitHost_colon (by simp) apart (by simp)]
  split
  · intro same
    cases same
  · intro same
    have node := congrArg Prod.fst (Except.ok.inj same)
    have colon : 58 ∈ cString (91 :: before) := by
      simp only [List.isEmpty_cons, Bool.false_eq_true, if_false] at node
      rw [node]
      simp
    exact apart ((List.takeWhile_prefix _).subset colon)

theorem splitHost_bare_ne {v : List UInt8} (colons : HasTwoColons v) :
    splitHost v ≠ .ok (v, none) := by
  rcases colons.split with ⟨before, behind, split, absent, more⟩
  have head := head?_ne_of_notMem colons.2.2
  rw [split] at head
  rw [split, splitHost_colon head absent (List.ne_nil_of_mem more)]
  split
  · intro same
    cases same
  · intro same
    have service := congrArg Prod.snd (Except.ok.inj same)
    cases service

/-- The splitting is right exactly for the shapes without brackets and for the least hosts. -/
theorem splitHost_iff {h v s : List UInt8} (name : IsHostName h) (colons : HasTwoColons v)
    (nonempty : s ≠ []) :
    (splitHost h = .ok (h, none) ↔ 0 ∉ h) ∧
    (splitHost (h ++ 58 :: s) = .ok (h, some s) ↔
      h ≠ [] ∧ 0 ∉ h ∧ 0 ∉ s ∧ h.length % 2 ^ 32 ≠ 2 ^ 31 - 1) ∧
    splitHost (91 :: v ++ [93]) ≠ .ok (v, none) ∧
    splitHost (91 :: v ++ 93 :: 58 :: s) ≠ .ok (v, some s) ∧
    splitHost v ≠ .ok (v, none) ∧
    ¬SplitsShapes h v s ∧
    (∀ host, splitHost host ≠ .error .outside) := by
  refine ⟨splitHost_name_iff name, splitHost_service_iff name nonempty,
    splitHost_bracket_ne colons [] none, splitHost_bracket_ne colons (58 :: s) (some s),
    splitHost_bare_ne colons, ?_, splitHost_inside⟩
  rintro ⟨_, _, _, _, bare⟩
  exact splitHost_bare_ne colons bare

/-- A web server and the loopback address. -/
theorem splitHost_loopback : splitHost (text "::1") ≠ .ok (text "::1", none) := by
  have name : IsHostName (text "localhost") := ⟨by decide, by decide, by decide⟩
  have colons : HasTwoColons (text "::1") := ⟨by decide, by decide, by decide⟩
  exact (splitHost_iff name colons (show text "80" ≠ [] by decide)).2.2.2.2.1

theorem not_splitsShapes : ¬SplitsShapes (text "localhost") (text "::1") (text "80") := by
  rintro ⟨_, _, bracketed, _⟩
  have passed : splitHost (91 :: text "::1" ++ [93]) = .ok (text "[", some (text ":1]")) := by
    decide
  rw [passed] at bracketed
  exact absurd bracketed (by decide)

end Socket

end FiberNet
