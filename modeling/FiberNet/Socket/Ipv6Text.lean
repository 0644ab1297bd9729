import FiberNet.Foundation.GroupText
import FiberNet.Http.Numerals
import FiberNet.Socket.Address
import Mathlib.Algebra.Group.Nat.Even
import Mathlib.Data.List.TakeWhile

/-! # The text of an IPv6 address -/

namespace FiberNet

namespace Socket

open Http (text decimal numeral isHex digitsValue)

/-! ## Reading a text -/

/-- One to four digits. -/
def IsGroup (group : List UInt8) : Prop :=
  0 < group.length ∧ group.length ≤ 4 ∧ ∀ byte ∈ group, isHex byte = true

instance (group : List UInt8) : Decidable (IsGroup group) :=
  inferInstanceAs (Decidable (_ ∧ _ ∧ _))

def groupValue (group : List UInt8) : Option Nat :=
  if IsGroup group then some (digitsValue 16 group) else none

/-- A reader of RFC 4291 texts, without the form that ends in an IPv4 address. -/
def parseIpv6 (bytes : List UInt8) : Option (List Nat) :=
  GroupText.parse 58 groupValue 8 0 bytes

/-- The RFC 4291 texts of hexadecimal groups. -/
def IsIpv6Text (bytes : List UInt8) : Prop :=
  GroupText.Valid 58 IsGroup 8 bytes

/-! ## Writing one -/

namespace SockaddrIn6

variable (host : Endian) (address : SockaddrIn6)

/-- `((uint16_t*)s6_addr)[i]`. -/
def word (i : Nat) : BitVec 16 :=
  ofMemory host 16 [address.addr.toList.getD (2 * i) 0, address.addr.toList.getD (2 * i + 1) 0]

/-- The loop of `display`, with what it has written so far. -/
def displayLoop : (indices : List Nat) → (tag : Bool) → (os : List UInt8) → Bool × List UInt8
  | [], tag, os => (tag, os)
  | i :: indices, tag, os =>
      if address.word host i = 0#16 ∧ tag = false then displayLoop indices tag os
      else
        let opens := decide (i ≠ 0 ∧ address.word host (i - 1) = 0#16) && !tag
        let os := if opens then os ++ text ":" else os
        let os := if i ≠ 0 then os ++ text ":" else os
        displayLoop indices (tag || opens)
          (os ++ numeral 16 (byteSwapOnLittleEndian host 2 (address.word host i)).toNat)

/-- What follows the loop of `display`. -/
def epilogue (written : Bool × List UInt8) : List UInt8 :=
  if written.1 = false ∧ address.word host 7 = 0#16 then written.2 ++ text "::" else written.2

/-- What `display` writes between the brackets. -/
def displayText : List UInt8 :=
  address.epilogue host (address.displayLoop host (List.range 8) false [])

def display : List UInt8 :=
  text "[" ++ address.displayText host ++ text "]:" ++ decimal address.port.toNat

/-- The groups of the address. -/
def group (i : Nat) : Nat :=
  256 * (address.addr.toList.getD (2 * i) 0).toNat +
    (address.addr.toList.getD (2 * i + 1) 0).toNat

def groups : List Nat := (List.range 8).map address.group

/-! ## The groups in the text -/

variable {host address}

theorem swap_memory (host : Endian) (high low : UInt8) :
    (byteSwapOnLittleEndian host 2 (ofMemory host 16 [high, low])).toNat =
      256 * high.toNat + low.toNat := by
  have highBound := high.toNat_lt
  have lowBound := low.toNat_lt
  cases host with
  | little =>
      have bytes := toBytes_ofBytes [high, low]
      have small : (ofMemory .little 16 [high, low]).toNat = ofBytes [high, low] := by
        rw [ofMemory, BitVec.toNat_ofNat, Endian.arrange, Nat.mod_eq_of_lt]
        simp only [ofBytes]
        omega
      rw [byteSwapOnLittleEndian, byteSwap, small]
      rw [show toBytes 2 (ofBytes [high, low]) = [high, low] from bytes, BitVec.toNat_ofNat]
      simp only [List.reverse_cons, List.reverse_nil, List.nil_append, List.cons_append, ofBytes]
      omega
  | big =>
      rw [byteSwapOnLittleEndian, ofMemory, BitVec.toNat_ofNat]
      simp only [Endian.arrange, List.reverse_cons, List.reverse_nil, List.nil_append,
        List.cons_append, ofBytes]
      omega

theorem swap_word (i : Nat) :
    (byteSwapOnLittleEndian host 2 (address.word host i)).toNat = address.group i :=
  swap_memory host _ _

theorem word_eq_zero_iff (i : Nat) : address.word host i = 0#16 ↔ address.group i = 0 := by
  have zero : byteSwapOnLittleEndian host 2 0#16 = 0#16 := by
    cases host <;> rfl
  rw [← @swap_word host]
  constructor
  · intro same
    rw [same, zero]
    rfl
  · intro same
    have swapped := BitVec.eq_of_toNat_eq (same.trans BitVec.toNat_zero.symm)
    have back := @byteSwapOnLittleEndian_twice host 2 (address.word host i)
    rw [← back]
    exact (congrArg _ swapped).trans zero

variable (address)

def shown (indices : List Nat) : List (List UInt8) :=
  indices.map fun i => numeral 16 (address.group i)

/-- What is written behind a group that is not zero. -/
def gapText : List Nat → List UInt8
  | [] => []
  | i :: indices =>
      if address.group i = 0 then
        58 :: 58 :: GroupText.join 58
          (address.shown (indices.dropWhile fun index => address.group index = 0))
      else 58 :: numeral 16 (address.group i) ++ gapText indices

variable {address}

/-! What one pass of the loop writes. -/

section

variable {i : Nat} (indices : List Nat) (os : List UInt8)

theorem displayLoop_skip (zero : address.group i = 0) :
    address.displayLoop host (i :: indices) false os = address.displayLoop host indices false os := by
  have empty : address.word host i = 0#16 := (word_eq_zero_iff i).mpr zero
  rw [displayLoop, if_pos ⟨empty, rfl⟩]

theorem displayLoop_first (nonzero : address.group 0 ≠ 0) :
    address.displayLoop host (0 :: indices) false os =
      address.displayLoop host indices false (os ++ numeral 16 (address.group 0)) := by
  have full : address.word host 0 ≠ 0#16 := mt (word_eq_zero_iff 0).mp nonzero
  rw [displayLoop, if_neg fun both => full both.1, swap_word]
  rfl

theorem displayLoop_next (later : i ≠ 0) (nonzero : address.group i ≠ 0)
    (before : address.group (i - 1) ≠ 0) :
    address.displayLoop host (i :: indices) false os =
      address.displayLoop host indices false (os ++ 58 :: numeral 16 (address.group i)) := by
  have full : address.word host i ≠ 0#16 := mt (word_eq_zero_iff i).mp nonzero
  have fullBefore : address.word host (i - 1) ≠ 0#16 := mt (word_eq_zero_iff (i - 1)).mp before
  rw [displayLoop, if_neg fun both => full both.1, swap_word]
  simp [fullBefore, later, show text ":" = [58] from rfl]

theorem displayLoop_open (later : i ≠ 0) (nonzero : address.group i ≠ 0)
    (before : address.group (i - 1) = 0) :
    address.displayLoop host (i :: indices) false os =
      address.displayLoop host indices true
        (os ++ 58 :: 58 :: numeral 16 (address.group i)) := by
  have full : address.word host i ≠ 0#16 := mt (word_eq_zero_iff i).mp nonzero
  have emptyBefore : address.word host (i - 1) = 0#16 := (word_eq_zero_iff (i - 1)).mpr before
  rw [displayLoop, if_neg fun both => full both.1, swap_word]
  simp [emptyBefore, later, show text ":" = [58] from rfl]

theorem displayLoop_behind (later : i ≠ 0) :
    address.displayLoop host (i :: indices) true os =
      address.displayLoop host indices true (os ++ 58 :: numeral 16 (address.group i)) := by
  rw [displayLoop, if_neg fun both => Bool.noConfusion both.2, swap_word]
  simp [later, show text ":" = [58] from rfl]

end

/-- Behind the gap. -/
theorem displayLoop_tagged {indices : List Nat} (later : 0 ∉ indices) (os : List UInt8) :
    address.epilogue host (address.displayLoop host indices true os) =
      os ++ (address.shown indices).flatMap (58 :: ·) := by
  induction indices generalizing os with
  | nil => simp [displayLoop, shown, epilogue]
  | cons i indices induction =>
      rw [List.mem_cons, not_or] at later
      rw [displayLoop_behind indices os (Ne.symm later.1), induction later.2]
      simp [shown]

theorem zero_notMem_range' {start : Nat} (positive : 0 < start) (count : Nat) :
    0 ∉ List.range' start count := by
  rw [List.mem_range'_1]
  omega

/-- Behind a zero group before which there was no gap. -/
theorem displayLoop_gap {start count : Nat} (positive : 0 < start) (whole : start + count = 8)
    (zero : address.group (start - 1) = 0) (os : List UInt8) :
    address.epilogue host (address.displayLoop host (List.range' start count) false os) =
      os ++ 58 :: 58 :: GroupText.join 58 (address.shown
        ((List.range' start count).dropWhile fun index => address.group index = 0)) := by
  induction count generalizing start with
  | zero =>
      have last : address.word host 7 = 0#16 := by
        rw [word_eq_zero_iff, show 7 = start - 1 by omega]
        exact zero
      rw [List.range'_zero, displayLoop, epilogue, if_pos ⟨rfl, last⟩]
      rfl
  | succ count induction =>
      rw [List.range'_succ]
      by_cases more : address.group start = 0
      · rw [displayLoop_skip _ _ more, List.dropWhile_cons_of_pos (by simpa using more)]
        exact induction (Nat.succ_pos start) (by omega) more
      · rw [displayLoop_open _ _ positive.ne' more zero,
          displayLoop_tagged (zero_notMem_range' (Nat.succ_pos start) count),
          List.dropWhile_cons_of_neg (by simpa using more)]
        simp [shown, GroupText.join]

/-- Behind a group that is not zero, before a gap. -/
theorem displayLoop_words {start count : Nat} (positive : 0 < start) (whole : start + count = 8)
    (nonzero : address.group (start - 1) ≠ 0) (os : List UInt8) :
    address.epilogue host (address.displayLoop host (List.range' start count) false os) =
      os ++ address.gapText (List.range' start count) := by
  induction count generalizing start os with
  | zero =>
      have last : address.word host 7 ≠ 0#16 := by
        rw [Ne, word_eq_zero_iff, show 7 = start - 1 by omega]
        exact nonzero
      rw [List.range'_zero, displayLoop, epilogue, if_neg fun both => last both.2, gapText,
        List.append_nil]
  | succ count induction =>
      rw [List.range'_succ, gapText]
      split
      · rename_i zero
        rw [displayLoop_skip _ _ zero, displayLoop_gap (Nat.succ_pos start) (by omega) zero]
      · rename_i more
        rw [displayLoop_next _ _ positive.ne' more nonzero,
          induction (Nat.succ_pos start) (by omega) more, List.append_assoc]

theorem displayText_eq :
    address.displayText host =
      if address.group 0 = 0 then
        58 :: 58 :: GroupText.join 58 (address.shown
          ((List.range' 1 7).dropWhile fun index => address.group index = 0))
      else numeral 16 (address.group 0) ++ address.gapText (List.range' 1 7) := by
  rw [displayText, show List.range 8 = 0 :: List.range' 1 7 from rfl]
  split
  · rename_i zero
    have gap := @displayLoop_gap host address 1 7 Nat.one_pos rfl zero []
    rw [displayLoop_skip _ _ zero, gap, List.nil_append]
  · rename_i nonzero
    have words := @displayLoop_words host address 1 7 Nat.one_pos rfl nonzero
    rw [displayLoop_first _ _ nonzero, words, List.nil_append]

/-- The zero groups that a text leaves out. -/
def Gap (address : SockaddrIn6) (zeros : List Nat) : Prop :=
  zeros ≠ [] ∧ ∀ i ∈ zeros, address.group i = 0

theorem gap_cons {i : Nat} (zero : address.group i = 0) (indices : List Nat) :
    Gap address (i :: indices.takeWhile fun index => address.group index = 0) := by
  refine ⟨List.cons_ne_nil _ _, ?_⟩
  intro index member
  rcases List.mem_cons.mp member with same | member
  · rw [same]
    exact zero
  · have zero := List.mem_takeWhile_imp member
    exact of_decide_eq_true zero

theorem gapText_cases (indices : List Nat) :
    address.gapText indices = (address.shown indices).flatMap (58 :: ·) ∨
      ∃ before zeros behind, indices = before ++ zeros ++ behind ∧ Gap address zeros ∧
        address.gapText indices = (address.shown before).flatMap (58 :: ·) ++
          58 :: 58 :: GroupText.join 58 (address.shown behind) := by
  induction indices with
  | nil => exact .inl rfl
  | cons i indices induction =>
      rw [gapText]
      split
      · rename_i zero
        refine .inr ⟨[], _, _, ?_, gap_cons zero indices, rfl⟩
        rw [List.nil_append, List.cons_append, List.takeWhile_append_dropWhile]
      · rcases induction with plain | ⟨before, zeros, behind, split, gap, shape⟩
        · left
          rw [plain]
          simp [shown]
        · right
          refine ⟨i :: before, zeros, behind, ?_, gap, ?_⟩
          · rw [split, List.cons_append, List.cons_append]
          · rw [shape]
            simp [shown]

/-- The text has all groups, or all but some zero groups. -/
theorem displayText_cases :
    address.displayText host = GroupText.join 58 (address.shown (List.range 8)) ∨
      ∃ before zeros behind, List.range 8 = before ++ zeros ++ behind ∧ Gap address zeros ∧
        address.displayText host = GroupText.join 58 (address.shown before) ++
          58 :: 58 :: GroupText.join 58 (address.shown behind) := by
  rw [displayText_eq, show List.range 8 = 0 :: List.range' 1 7 from rfl]
  split
  · rename_i zero
    refine .inr ⟨[], _, _, ?_, gap_cons zero (List.range' 1 7), rfl⟩
    rw [List.nil_append, List.cons_append, List.takeWhile_append_dropWhile]
  · rcases gapText_cases (List.range' 1 7) with plain | ⟨before, zeros, behind, split, gap, shape⟩
    · left
      rw [plain]
      rfl
    · right
      refine ⟨0 :: before, zeros, behind, ?_, gap, ?_⟩
      · rw [split, List.cons_append, List.cons_append]
      · rw [shape, ← List.append_assoc]
        rfl

/-! ## Reading the text back -/

theorem group_lt (i : Nat) : address.group i < 16 ^ 4 := by
  have high := (address.addr.toList.getD (2 * i) 0).toNat_lt
  have low := (address.addr.toList.getD (2 * i + 1) 0).toNat_lt
  rw [group]
  omega

theorem isGroup_numeral (i : Nat) : IsGroup (numeral 16 (address.group i)) := by
  refine ⟨List.length_pos_iff.mpr (Http.numeral_ne_nil _ _),
    (Http.length_numeral_le_iff (by decide) (by decide)).mpr (group_lt i), ?_⟩
  intro byte member
  have digit := Http.isDigit_of_mem_numeral (by decide) (by decide) member
  exact (Bool.and_eq_true_iff.mp digit).1

theorem isGroup_of_mem_shown {indices : List Nat} {word : List UInt8}
    (member : word ∈ address.shown indices) : IsGroup word := by
  rcases List.mem_map.mp member with ⟨i, _, rfl⟩
  exact isGroup_numeral i

theorem word_of_isGroup {word : List UInt8} (isGroup : IsGroup word) :
    GroupText.Word 58 word := by
  refine ⟨List.length_pos_iff.mp isGroup.1, ?_⟩
  intro member
  exact absurd (isGroup.2.2 58 member) (by decide)

theorem mapM_shown (indices : List Nat) :
    (address.shown indices).mapM groupValue = some (indices.map address.group) := by
  induction indices with
  | nil => rfl
  | cons i indices induction =>
      have value : groupValue (numeral 16 (address.group i)) = some (address.group i) := by
        rw [groupValue, if_pos (isGroup_numeral i),
          Http.digitsValue_numeral (by decide) (by decide)]
      rw [shown] at induction
      rw [shown, List.map_cons, List.mapM_cons, value, induction]
      rfl

theorem words_shown (indices : List Nat) :
    ∀ word ∈ address.shown indices, GroupText.Word 58 word := by
  intro word member
  exact word_of_isGroup (isGroup_of_mem_shown member)

/-- What a gap leaves out can be put back. -/
theorem map_gap {before zeros behind : List Nat} (split : List.range 8 = before ++ zeros ++ behind)
    (gap : Gap address zeros) :
    before.length + behind.length < 8 ∧
      before.map address.group ++
          List.replicate (8 - before.length - behind.length) 0 ++ behind.map address.group =
        address.groups := by
  have lengths := congrArg List.length split
  have some := List.length_pos_iff.mpr gap.1
  simp only [List.length_range, List.length_append] at lengths
  have zero : zeros.map address.group = List.replicate zeros.length 0 := by
    rw [List.map_eq_replicate_iff]
    exact gap.2
  refine ⟨by omega, ?_⟩
  rw [groups, split, List.map_append, List.map_append, zero,
    show 8 - before.length - behind.length = zeros.length by omega]

/-- The text is one of RFC 4291, and its groups are those of the address. -/
theorem parse_displayText :
    IsIpv6Text (address.displayText host) ∧
      parseIpv6 (address.displayText host) = some address.groups := by
  rcases @displayText_cases host address with plain | ⟨before, zeros, behind, split, gap, shape⟩
  · rw [plain]
    constructor
    · refine .inl ⟨_, ?_, fun word => isGroup_of_mem_shown, rfl⟩
      rw [shown, List.length_map, List.length_range]
    · apply GroupText.parse_join (words_shown _) (mapM_shown _)
      rw [List.length_map, List.length_range]
  · rcases map_gap split gap with ⟨missing, back⟩
    rw [shape]
    constructor
    · refine .inr ⟨_, _, ?_, ?_, rfl⟩
      · rw [shown, shown, List.length_map, List.length_map]
        exact missing
      · intro word member
        rcases List.mem_append.mp member with first | last
        · exact isGroup_of_mem_shown first
        · exact isGroup_of_mem_shown last
    · rw [← back]
      have read := @GroupText.parse_gap _ _ 58 _ groupValue 8 0 _ _ _ _
        (@words_shown address before) (@words_shown address behind) (mapM_shown before)
        (mapM_shown behind)
      rw [List.length_map, List.length_map] at read
      exact read missing

theorem bytes_of_group {left right : SockaddrIn6} {i : Nat}
    (same : left.group i = right.group i) :
    left.addr.toList.getD (2 * i) 0 = right.addr.toList.getD (2 * i) 0 ∧
      left.addr.toList.getD (2 * i + 1) 0 = right.addr.toList.getD (2 * i + 1) 0 := by
  have leftLow := (left.addr.toList.getD (2 * i + 1) 0).toNat_lt
  have rightLow := (right.addr.toList.getD (2 * i + 1) 0).toNat_lt
  rw [group, group] at same
  rw [← UInt8.toNat_inj, ← UInt8.toNat_inj]
  omega

theorem addr_of_groups {left right : SockaddrIn6} (same : left.groups = right.groups) :
    left.addr = right.addr := by
  have byte (address : SockaddrIn6) (index : Nat) (below : index < 16) :
      address.addr[index] = address.addr.toList.getD index 0 := by
    simp [below]
  have equal (i : Nat) (below : i < 8) : left.group i = right.group i := by
    have entries := congrArg (fun groups => groups[i]?) same
    simpa [groups, below] using entries
  apply Vector.ext
  intro index below
  rw [byte left index below, byte right index below]
  rcases Nat.even_or_odd' index with ⟨i, rfl | rfl⟩
  · exact (bytes_of_group (equal i (by omega))).1
  · exact (bytes_of_group (equal i (by omega))).2

/-- What stands between the brackets is a text of RFC 4291 that is read back as the address, and so
no other address has it. -/
theorem display_round_trip (host : Endian) (address : SockaddrIn6) :
    address.display host =
      text "[" ++ address.displayText host ++ text "]:" ++ decimal address.port.toNat ∧
    IsIpv6Text (address.displayText host) ∧
    parseIpv6 (address.displayText host) = some address.groups ∧
    ∀ other : SockaddrIn6, other.displayText host = address.displayText host →
      other.addr = address.addr := by
  have read := @parse_displayText host address
  refine ⟨rfl, read.1, read.2, ?_⟩
  intro other same
  have otherRead := (@parse_displayText host other).2
  rw [same, read.2] at otherRead
  exact addr_of_groups (Option.some.inj otherRead).symm

/-- The loopback address. -/
example : SockaddrIn6.displayText .little
    { addr := #v[0, 0, 0, 0, 0, 0, 0, 0, 0, 0, 0, 0, 0, 0, 0, 1] } = text "::1" := by
  decide

end SockaddrIn6

end Socket

end FiberNet
