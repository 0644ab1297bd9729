import FiberNet.Http.Forms
import Mathlib.Algebra.Group.Int.Defs
import Mathlib.Algebra.Group.Nat.Defs

/-! # The URL codec

`urlEncode` looks its characters up in two tables, by a `char` converted to `size_t`. The
decoder never makes a blank of a plus.
-/

namespace FiberNet

namespace Crypto

/-! ## Definitions -/

/-- The value of a `char`, which is signed. -/
def charValue (c : UInt8) : Int :=
  c.toInt8.toInt

/-- An `int` or a `char` as a `size_t`. -/
def toSize (value : Int) : Nat :=
  (value % 2 ^ 64).toNat

/-- The characters for which the table is set. The loops stop before 'z', 'Z' and '9'. -/
def valid (c : Nat) : Bool :=
  (97 ≤ c && c < 122) || (65 ≤ c && c < 90) || (48 ≤ c && c < 57) ||
    [36, 45, 95, 46, 43, 33, 42, 39, 40, 41].contains c

/-- `uri_valid`. -/
def uriValid : List Bool :=
  (List.range 256).map valid

/-- "0123456789ABCDEF" -/
def hexStr : List UInt8 :=
  [48, 49, 50, 51, 52, 53, 54, 55, 56, 57, 65, 66, 67, 68, 69, 70]

/-- What is written for one character. -/
def encodeChar (spaceToPlus : Bool) (c : UInt8) : Option (List UInt8) :=
  if c = 32 ∧ spaceToPlus then some [43]
  else do
    if !(← uriValid[toSize (charValue c)]?) then
      let high ← hexStr[toSize (charValue c >>> (4 : Nat))]?
      let low ← hexStr[(c &&& 0xf).toNat]?
      return [37, high, low]
    else return [c]

/-- It has no value if a table is accessed out of its bounds. -/
def urlEncode (spaceToPlus : Bool) : List UInt8 → Option (List UInt8)
  | [] => some []
  | c :: str => do
      let first ← encodeChar spaceToPlus c
      let rest ← urlEncode spaceToPlus str
      return first ++ rest

def urlDecode (spaceToPlus : Bool) : List UInt8 → List UInt8
  | 37 :: high :: low :: str =>
      if Http.isHex high && Http.isHex low then
        UInt8.ofNat (Http.hexToDec high * 16 + Http.hexToDec low) :: urlDecode spaceToPlus str
      else 37 :: urlDecode spaceToPlus (high :: low :: str)
  | c :: str =>
      if c = 32 ∧ spaceToPlus then 43 :: urlDecode spaceToPlus str
      else c :: urlDecode spaceToPlus str
  | [] => []

/-- The decoder that the parser of forms uses is this one with its default. -/
theorem urlDecode_true (str : List UInt8) : urlDecode true str = Http.urlDecode str := by
  fun_induction Http.urlDecode str with
  | case1 high low bytes digits ih => rw [urlDecode, if_pos digits, ih]
  | case2 high low bytes digits ih => rw [urlDecode, if_neg digits, ih]
  | case3 bytes ih =>
      rw [urlDecode, if_pos ⟨rfl, rfl⟩, ih]
      intro high low rest same
      cases same
  | case4 byte bytes percent blank ih =>
      rw [urlDecode, if_neg (by simpa using blank), ih]
      exact percent
  | case5 => rfl

/-- Characters of the table, '+' and triples of a percent sign and two digits. -/
inductive Encoded : List UInt8 → Prop
  | nil : Encoded []
  | unreserved {c : UInt8} {str : List UInt8} (listed : valid c.toNat = true)
      (rest : Encoded str) : Encoded (c :: str)
  | plus {str : List UInt8} (rest : Encoded str) : Encoded (43 :: str)
  | triple {high low : UInt8} {str : List UInt8} (digits : (Http.isHex high && Http.isHex low) = true)
      (rest : Encoded str) : Encoded (37 :: high :: low :: str)

/-- The string is encoded inside the tables, as URLs have it, and decoded again. -/
def RoundTrips (spaceToPlus : Bool) (str : List UInt8) : Prop :=
  ∃ encoded, urlEncode spaceToPlus str = some encoded ∧ Encoded encoded ∧
    urlDecode spaceToPlus encoded = str

/-! ## One character -/

theorem charValue_ascii {c : UInt8} (ascii : c.toNat < 128) : charValue c = c.toNat := by
  have value : charValue c = c.toBitVec.toInt := rfl
  rw [value, BitVec.toInt_eq_toNat_of_lt (by rw [UInt8.toNat_toBitVec]; omega),
    UInt8.toNat_toBitVec]

theorem toSize_ascii {c : UInt8} (ascii : c.toNat < 128) : toSize (charValue c) = c.toNat := by
  rw [charValue_ascii ascii, toSize]
  omega

/-- A negative `char` is a large index. -/
theorem toSize_negative {c : UInt8} (high : 128 ≤ c.toNat) : 256 ≤ toSize (charValue c) := by
  have value : charValue c = c.toBitVec.toInt := rfl
  have below := c.toNat_lt
  rw [value, BitVec.toInt_eq_toNat_cond, UInt8.toNat_toBitVec, if_neg (by omega), toSize]
  omega

theorem uriValid_eq {index : Nat} (inside : index < 256) :
    uriValid[index]? = some (valid index) := by
  rw [uriValid, List.getElem?_map, List.getElem?_range inside, Option.map_some]

theorem uriValid_beyond {index : Nat} (outside : 256 ≤ index) : uriValid[index]? = none := by
  apply List.getElem?_eq_none
  rwa [uriValid, List.length_map, List.length_range]

theorem hexStr_digit : ∀ number < 16, ∃ digit, hexStr[number]? = some digit ∧
    Http.isHex digit = true ∧ Http.hexToDec digit = number := by
  decide

theorem urlDecode_plain {spaceToPlus : Bool} {c : UInt8} (percent : c ≠ 37) (str : List UInt8) :
    urlDecode spaceToPlus (c :: str) =
      (if c = 32 ∧ spaceToPlus then 43 else c) :: urlDecode spaceToPlus str := by
  rw [urlDecode]
  · split <;> rfl
  · rintro high low rest rfl
    exact absurd rfl percent

theorem valid_plain {c : UInt8} (listed : valid c.toNat = true) : c ≠ 37 ∧ c ≠ 32 := by
  constructor <;> rintro rfl <;> cases listed

/-- What is written for a character is well formed and decoded again, whatever follows. -/
structure Written (spaceToPlus : Bool) (c : UInt8) (piece : List UInt8) : Prop where
  encoded : ∀ {str}, Encoded str → Encoded (piece ++ str)
  decoded : ∀ str, urlDecode spaceToPlus (piece ++ str) =
    (if c = 32 ∧ spaceToPlus then 43 else c) :: urlDecode spaceToPlus str

theorem encodeChar_ascii (spaceToPlus : Bool) {c : UInt8} (ascii : c.toNat < 128) :
    ∃ piece, encodeChar spaceToPlus c = some piece ∧ Written spaceToPlus c piece := by
  unfold encodeChar
  by_cases blank : c = 32 ∧ spaceToPlus
  · refine ⟨[43], if_pos blank, .plus, ?_⟩
    intro str
    rw [if_pos blank, List.singleton_append, urlDecode_plain (by decide), if_neg (by simp)]
  · have table := @uriValid_eq c.toNat (by omega)
    rw [if_neg blank, toSize_ascii ascii, table]
    cases listed : valid c.toNat with
    | true =>
        rcases valid_plain listed with ⟨percent, _⟩
        exact ⟨[c], rfl, .unreserved listed, fun str => urlDecode_plain percent str⟩
    | false =>
        have shifted : toSize (charValue c >>> (4 : Nat)) = c.toNat / 16 := by
          rw [charValue_ascii ascii, Int.shiftRight_eq_div_pow, toSize]
          omega
        have masked : (c &&& 0xf).toNat = c.toNat % 16 := by
          rw [UInt8.toNat_and]
          exact Nat.and_two_pow_sub_one_eq_mod c.toNat 4
        rcases hexStr_digit (c.toNat / 16) (by omega) with ⟨high, highFound, highHex, highValue⟩
        rcases hexStr_digit (c.toNat % 16) (by omega) with ⟨low, lowFound, lowHex, lowValue⟩
        have digits : (Http.isHex high && Http.isHex low) = true := by rw [highHex, lowHex]; rfl
        have value : UInt8.ofNat (Http.hexToDec high * 16 + Http.hexToDec low) = c := by
          rw [highValue, lowValue, Nat.div_add_mod']
          exact UInt8.ofNat_toNat
        refine ⟨[37, high, low], ?_, .triple digits, ?_⟩
        · rw [shifted, masked, highFound, lowFound]
          rfl
        · intro str
          change urlDecode spaceToPlus (37 :: high :: low :: str) = _
          rw [urlDecode, if_pos digits, value, if_neg blank]

theorem encodeChar_negative (spaceToPlus : Bool) {c : UInt8} (high : 128 ≤ c.toNat) :
    encodeChar spaceToPlus c = none := by
  have other : ¬(c = 32 ∧ spaceToPlus = true) := by
    rintro ⟨rfl, _⟩
    exact absurd high (by decide)
  rw [encodeChar, if_neg other, uriValid_beyond (toSize_negative high)]
  rfl

/-! ## Strings -/

theorem urlEncode_cons {spaceToPlus : Bool} {c : UInt8} {str piece encoded : List UInt8}
    (first : encodeChar spaceToPlus c = some piece)
    (rest : urlEncode spaceToPlus str = some encoded) :
    urlEncode spaceToPlus (c :: str) = some (piece ++ encoded) := by
  rw [urlEncode, first, rest]
  rfl

/-- A string of ASCII characters is encoded, and what is decoded has a plus for a blank. -/
theorem urlEncode_ascii (spaceToPlus : Bool) (str : List UInt8)
    (ascii : ∀ c ∈ str, c.toNat < 128) :
    ∃ encoded, urlEncode spaceToPlus str = some encoded ∧ Encoded encoded ∧
      urlDecode spaceToPlus encoded = str.map fun c => if c = 32 ∧ spaceToPlus then 43 else c := by
  induction str with
  | nil => exact ⟨[], rfl, .nil, rfl⟩
  | cons c str ih =>
      rcases List.forall_mem_cons.mp ascii with ⟨first, others⟩
      rcases ih others with ⟨encoded, rest, formed, decoded⟩
      rcases encodeChar_ascii spaceToPlus first with ⟨piece, piece_eq, written⟩
      refine ⟨piece ++ encoded, urlEncode_cons piece_eq rest, written.encoded formed, ?_⟩
      rw [written.decoded, decoded, List.map_cons]

theorem urlEncode_negative (spaceToPlus : Bool) {str : List UInt8} {c : UInt8}
    (member : c ∈ str) (high : 128 ≤ c.toNat) : urlEncode spaceToPlus str = none := by
  induction str with
  | nil => cases member
  | cons head str ih =>
      rw [urlEncode]
      rcases List.mem_cons.mp member with rfl | later
      · rw [encodeChar_negative spaceToPlus high]
        rfl
      · rw [ih later]
        cases encodeChar spaceToPlus head <;> rfl

theorem map_plus_eq_iff (spaceToPlus : Bool) (str : List UInt8) :
    (str.map fun c => if c = 32 ∧ spaceToPlus then (43 : UInt8) else c) = str ↔
      (spaceToPlus = true → 32 ∉ str) := by
  induction str with
  | nil => simp
  | cons c str ih =>
      rw [List.map_cons, List.cons.injEq, ih]
      constructor
      · rintro ⟨same, others⟩ plus member
        rcases List.mem_cons.mp member with blank | later
        · rw [if_pos ⟨blank.symm, plus⟩, ← blank] at same
          exact absurd same (by decide)
        · exact others plus later
      · intro none
        constructor
        · rw [if_neg]
          rintro ⟨rfl, plus⟩
          exact none plus List.mem_cons_self
        · intro plus later
          exact none plus (List.mem_cons_of_mem c later)

/-- The round trip of exactly the strings of ASCII characters, without blanks if these are to
become pluses. -/
theorem urlCodec_iff (spaceToPlus : Bool) (str : List UInt8) :
    RoundTrips spaceToPlus str ↔
      (∀ c ∈ str, c.toNat < 128) ∧ (spaceToPlus = true → 32 ∉ str) := by
  constructor
  · rintro ⟨encoded, returned, _, decoded⟩
    have ascii : ∀ c ∈ str, c.toNat < 128 := by
      intro c member
      apply Nat.lt_of_not_le
      intro high
      rw [urlEncode_negative spaceToPlus member high] at returned
      cases returned
    rcases urlEncode_ascii spaceToPlus str ascii with ⟨other, returned', _, decoded'⟩
    rw [returned] at returned'
    cases returned'
    exact ⟨ascii, (map_plus_eq_iff spaceToPlus str).mp (decoded'.symm.trans decoded)⟩
  · rintro ⟨ascii, blanks⟩
    rcases urlEncode_ascii spaceToPlus str ascii with ⟨encoded, returned, formed, decoded⟩
    exact ⟨encoded, returned, formed,
      decoded.trans ((map_plus_eq_iff spaceToPlus str).mpr blanks)⟩

/-- The first byte of "é" is a negative `char`. -/
theorem not_urlCodec : ¬∀ str, RoundTrips true str := by
  intro trips
  rcases trips [195] with ⟨encoded, returned, _⟩
  rw [urlEncode_negative true List.mem_cons_self (by decide)] at returned
  cases returned

end Crypto

end FiberNet
