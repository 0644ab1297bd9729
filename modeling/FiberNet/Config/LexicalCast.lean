import FiberNet.Config.ConfigVar
import FiberNet.Http.Numerals

/-! # Integral values as texts

A variable of an integral type is printed by a stream and read by `strtoll`.
-/

namespace FiberNet

namespace Config

inductive Width
  | w8
  | w16
  | w32
  | w64
  deriving DecidableEq

def Width.bits : Width → Nat
  | .w8 => 8
  | .w16 => 16
  | .w32 => 32
  | .w64 => 64

inductive Integral
  | bool
  | signed (width : Width)
  | unsigned (width : Width)
  deriving DecidableEq

namespace Integral

def lowest : Integral → Int
  | .bool | .unsigned _ => 0
  | .signed width => -2 ^ (width.bits - 1)

def highest : Integral → Int
  | .bool => 1
  | .signed width => 2 ^ (width.bits - 1) - 1
  | .unsigned width => 2 ^ width.bits - 1

def Within (type : Integral) (value : Int) : Prop :=
  type.lowest ≤ value ∧ value ≤ type.highest

abbrev Value (type : Integral) := { value : Int // type.Within value }

/-- The conversion from a wider type. -/
def wrap : Integral → Int → Int
  | .bool, value => if value = 0 then 0 else 1
  | .signed width, value => value.bmod (2 ^ width.bits)
  | .unsigned width, value => value % 2 ^ width.bits

theorem within_wrap (type : Integral) (value : Int) : type.Within (type.wrap value) := by
  cases type with
  | bool =>
      rw [wrap]
      split
      · exact ⟨by decide, by decide⟩
      · exact ⟨by decide, by decide⟩
  | signed width =>
      have low := @Int.le_bmod value (2 ^ width.bits) (Nat.two_pow_pos _)
      have high := @Int.bmod_lt value (2 ^ width.bits) (Nat.two_pow_pos _)
      cases width with
      | w8 => exact ⟨low, Int.le_sub_one_of_lt high⟩
      | w16 => exact ⟨low, Int.le_sub_one_of_lt high⟩
      | w32 => exact ⟨low, Int.le_sub_one_of_lt high⟩
      | w64 => exact ⟨low, Int.le_sub_one_of_lt high⟩
  | unsigned width =>
      have positive : (0 : Int) < 2 ^ width.bits := Int.pow_pos (by decide)
      exact ⟨Int.emod_nonneg _ (Int.ne_of_gt positive),
        Int.le_sub_one_of_lt (Int.emod_lt_of_pos _ positive)⟩

theorem wrap_of_within {type : Integral} {value : Int} (within : type.Within value) :
    type.wrap value = value := by
  rcases within with ⟨low, high⟩
  cases type with
  | bool =>
      rw [lowest] at low
      rw [highest] at high
      rw [wrap]
      split
      · rename_i zero
        exact zero.symm
      · omega
  | signed width =>
      cases width with
      | w8 => exact Int.bmod_eq_of_le low (Int.lt_of_le_sub_one high)
      | w16 => exact Int.bmod_eq_of_le low (Int.lt_of_le_sub_one high)
      | w32 => exact Int.bmod_eq_of_le low (Int.lt_of_le_sub_one high)
      | w64 => exact Int.bmod_eq_of_le low (Int.lt_of_le_sub_one high)
  | unsigned width => exact Int.emod_eq_of_lt low (Int.lt_of_le_sub_one high)

def narrow (type : Integral) (value : Int) : type.Value :=
  ⟨type.wrap value, type.within_wrap value⟩

/-- A number as a stream prints it. -/
def integerText (value : Int) : List UInt8 :=
  if value < 0 then 45 :: Http.numeral 10 value.natAbs else Http.numeral 10 value.natAbs

/-- `Lexical_Cast<T, std::string>`. The types of 8 bits are characters for the stream. -/
def toText (type : Integral) (value : type.Value) : List UInt8 :=
  match type with
  | .signed .w8 | .unsigned .w8 => [UInt8.ofNat (value.1 % 256).toNat]
  | _ => integerText value.1

/-- `Lexical_Cast<std::string, T>`. -/
def ofText (type : Integral) (text : List UInt8) : type.Value :=
  type.narrow (Http.strtol 10 text)

/-! ## What `strtoll` reads -/

theorem strtol_integerText (value : Int) {rest : List UInt8}
    (stops : rest.takeWhile (Http.isDigit 10) = []) :
    Http.strtol 10 (integerText value ++ rest) =
      if value < 0 then max value (-2 ^ 63) else min value (2 ^ 63 - 1) := by
  have digits := fun byte (member : byte ∈ Http.numeral 10 value.natAbs) =>
    Http.isDigit_of_mem_numeral (by decide) (by decide) member
  have read := Http.strtol_digits (Http.numeral_ne_nil 10 value.natAbs) digits stops
  rw [Http.digitsValue_numeral (by decide) (by decide)] at read
  rw [integerText]
  split
  · rename_i negative
    rw [List.cons_append, read.2]
    congr 1
    omega
  · rw [read.1]
    congr 1
    omega

theorem strtol_of_fits {number : Int} (low : -2 ^ 63 ≤ number) (high : number < 2 ^ 63)
    {rest : List UInt8} (stops : rest.takeWhile (Http.isDigit 10) = []) :
    Http.strtol 10 (integerText number ++ rest) = number := by
  rw [strtol_integerText number stops]
  split
  · omega
  · omega

theorem strtol_byte (byte : UInt8) :
    Http.strtol 10 [byte] =
      if Http.isDigit 10 byte = true then (Http.hexToDec byte : Int) else 0 := by
  split
  · rename_i digit
    have read := (@Http.strtol_digits [byte] [] (List.cons_ne_nil byte [])
      (by simpa using digit) rfl).1
    have range := Http.isDigit_ten digit
    rw [List.append_nil] at read
    rw [read, Http.digitsValue, List.foldl_cons, List.foldl_nil, Http.hexToDec]
    split
    · omega
    · omega
  · rename_i other
    by_cases minus : byte = 45
    · rw [minus]
      rfl
    by_cases plus : byte = 43
    · rw [plus]
      rfl
    cases space : Http.isSpace byte with
    | true =>
        rw [Http.strtol, List.dropWhile_cons_of_pos space]
        rfl
    | false =>
        have none : [byte].takeWhile (Http.isDigit 10) = [] := by simp [other]
        rw [Http.strtol, List.dropWhile_cons_of_neg (by simp [space])]
        simp only [List.headD_cons, minus, plus, or_self, if_false, Nat.reduceEqDiff, false_and,
          none]
        rfl

/-! ## Round trips -/

/-- A value that is printed and read comes back. -/
def RoundTrips (type : Integral) (value : type.Value) : Prop :=
  type.ofText (type.toText value) = value

/-- The types that a stream prints as a character. -/
def IsCharacter : Integral → Prop
  | .signed .w8 | .unsigned .w8 => True
  | _ => False

theorem toText_of_not_isCharacter {type : Integral} (number : ¬type.IsCharacter)
    (value : type.Value) : type.toText value = integerText value.1 := by
  cases type with
  | bool => rfl
  | signed width =>
      cases width with
      | w8 => exact absurd trivial number
      | w16 => rfl
      | w32 => rfl
      | w64 => rfl
  | unsigned width =>
      cases width with
      | w8 => exact absurd trivial number
      | w16 => rfl
      | w32 => rfl
      | w64 => rfl

theorem toText_of_isCharacter {type : Integral} (character : type.IsCharacter)
    (value : type.Value) : type.toText value = [UInt8.ofNat (value.1 % 256).toNat] := by
  cases type with
  | bool => cases character
  | signed width =>
      cases width with
      | w8 => rfl
      | w16 => cases character
      | w32 => cases character
      | w64 => cases character
  | unsigned width =>
      cases width with
      | w8 => rfl
      | w16 => cases character
      | w32 => cases character
      | w64 => cases character

theorem bounds (type : Integral) :
    -2 ^ 63 ≤ type.lowest ∧ type.lowest ≤ 0 ∧ type.highest < 2 ^ 64 := by
  cases type with
  | bool => decide
  | signed width => cases width <;> decide
  | unsigned width => cases width <;> decide

theorem character_bounds {type : Integral} (character : type.IsCharacter) :
    -128 ≤ type.lowest ∧ 127 ≤ type.highest ∧ type.highest ≤ 255 := by
  cases type with
  | bool => cases character
  | signed width =>
      cases width with
      | w8 => decide
      | w16 => cases character
      | w32 => cases character
      | w64 => cases character
  | unsigned width =>
      cases width with
      | w8 => decide
      | w16 => cases character
      | w32 => cases character
      | w64 => cases character

/-- What is read is the value if it is converted to it. -/
theorem ofText_eq_iff {type : Integral} {value : type.Value} {text : List UInt8} :
    type.ofText text = value ↔ type.wrap (Http.strtol 10 text) = value.1 :=
  Subtype.ext_iff

/-- `strtoll` reads no value from 2^63 on. -/
theorem roundTrips_number {type : Integral} (number : ¬type.IsCharacter) (value : type.Value) :
    type.RoundTrips value ↔ value.1 < 2 ^ 63 := by
  have limits := type.bounds
  have low := value.2.1
  have high := value.2.2
  rw [RoundTrips, ofText_eq_iff, toText_of_not_isCharacter number,
    ← List.append_nil (integerText value.1)]
  by_cases small : value.1 < 2 ^ 63
  · rw [strtol_of_fits (by omega) small rfl, wrap_of_within value.2]
    exact iff_of_true rfl small
  · have clamped : Http.strtol 10 (integerText value.1 ++ []) = 2 ^ 63 - 1 := by
      rw [strtol_integerText value.1 rfl, if_neg (by omega)]
      omega
    have within : type.Within (2 ^ 63 - 1) := ⟨by omega, by omega⟩
    rw [clamped, wrap_of_within within]
    exact iff_of_false (by omega) small

/-- A character is read as a digit or as nothing. -/
theorem roundTrips_character {type : Integral} (character : type.IsCharacter)
    (value : type.Value) : type.RoundTrips value ↔ value.1 = 0 := by
  have limits := type.bounds
  have narrow := character_bounds character
  have low := value.2.1
  have high := value.2.2
  have byte : (UInt8.ofNat (value.1 % 256).toNat).toNat = (value.1 % 256).toNat :=
    UInt8.toNat_ofNat_of_lt' (show (value.1 % 256).toNat < 256 by omega)
  rw [RoundTrips, ofText_eq_iff, toText_of_isCharacter character, strtol_byte]
  split
  · rename_i digit
    have range := Http.isDigit_ten digit
    rw [byte] at range
    have read : Http.hexToDec (UInt8.ofNat (value.1 % 256).toNat) = (value.1 % 256).toNat - 48 := by
      rw [Http.hexToDec, byte, if_pos range.2]
    have within : type.Within (((value.1 % 256).toNat - 48 : Nat) : Int) := ⟨by omega, by omega⟩
    rw [read, wrap_of_within within]
    apply iff_of_false
    · omega
    · omega
  · have within : type.Within 0 := ⟨by omega, by omega⟩
    rw [wrap_of_within within]
    exact eq_comm

theorem roundTrips_integral_iff (type : Integral) (value : type.Value) :
    type.RoundTrips value ↔ (type.IsCharacter → value.1 = 0) ∧ value.1 < 2 ^ 63 := by
  by_cases character : type.IsCharacter
  · have high := value.2.2
    have narrow := character_bounds character
    rw [roundTrips_character character]
    constructor
    · intro zero
      exact ⟨fun _ => zero, by omega⟩
    · intro both
      exact both.1 character
  · rw [roundTrips_number character]
    exact (and_iff_right fun is => absurd is character).symm

/-! ## Texts that are no numbers -/

/-- A decimal numeral of a value. -/
def IsDecimal (type : Integral) (text : List UInt8) : Prop :=
  ∃ sign digits, (sign = [] ∨ sign = [43] ∨ sign = [45]) ∧ digits ≠ [] ∧
    (∀ byte ∈ digits, Http.isDigit 10 byte = true) ∧ text = sign ++ digits ∧
    type.Within (if sign = [45] then -(Http.digitsValue 10 digits : Int)
      else Http.digitsValue 10 digits)

/-- Every value is read from a number. -/
theorem exists_wrap (type : Integral) (value : type.Value) :
    ∃ number, -2 ^ 63 ≤ number ∧ number < 2 ^ 63 ∧ type.wrap number = value.1 := by
  have limits := type.bounds
  have low := value.2.1
  have high := value.2.2
  by_cases small : value.1 < 2 ^ 63
  · exact ⟨value.1, by omega, small, wrap_of_within value.2⟩
  · have widest : type = .unsigned .w64 := by
      cases type with
      | bool => exact absurd high (by simp [highest]; omega)
      | signed width => cases width <;> exact absurd high (by simp [highest, Width.bits]; omega)
      | unsigned width =>
          cases width with
          | w64 => rfl
          | w8 => exact absurd high (by simp [highest, Width.bits]; omega)
          | w16 => exact absurd high (by simp [highest, Width.bits]; omega)
          | w32 => exact absurd high (by simp [highest, Width.bits]; omega)
    subst widest
    refine ⟨value.1 - 2 ^ 64, by omega, by omega, ?_⟩
    rw [wrap, Width.bits]
    omega

theorem not_isDecimal_of_mem {type : Integral} {text : List UInt8} (member : 120 ∈ text) :
    ¬type.IsDecimal text := by
  intro decimal
  rcases decimal with ⟨sign, digits, signs, nonempty, all, shape, within⟩
  rw [shape] at member
  rcases List.mem_append.mp member with inSign | inDigits
  · rcases signs with none | plus | minus
    · rw [none] at inSign
      cases inSign
    · rw [plus] at inSign
      exact absurd (List.mem_singleton.mp inSign) (by decide)
    · rw [minus] at inSign
      exact absurd (List.mem_singleton.mp inSign) (by decide)
  · exact absurd (all 120 inDigits) (by decide)

/-- Every value is read from a text that is no numeral. -/
theorem exists_ofText (type : Integral) (value : type.Value) :
    ∃ text, ¬type.IsDecimal text ∧ type.ofText text = value := by
  rcases type.exists_wrap value with ⟨number, low, high, same⟩
  refine ⟨integerText number ++ [120],
    not_isDecimal_of_mem (List.mem_append_right _ List.mem_cons_self), ?_⟩
  rw [ofText_eq_iff, strtol_of_fits low high rfl]
  exact same

end Integral

/-- `fromStr` returns false and leaves the variable as it is. -/
def Rejects {type : Integral} (var : ConfigVar type.Value) (text : List UInt8) : Prop :=
  (var.fromStr (fun text => some (type.ofText text)) text).1 = false ∧
    (var.fromStr (fun text => some (type.ofText text)) text).2.1 = var

/-- Only a listener makes `fromStr` fail. -/
theorem rejects_iff {type : Integral} (var : ConfigVar type.Value) (text : List UInt8) :
    Rejects var text ↔ type.ofText text ≠ var.val ∧
      ¬∀ entry ∈ var.cbs.entries, entry.2 var.val (type.ofText text) = false := by
  rw [Rejects, ConfigVar.fromStr]
  simp only
  by_cases same : var.val = type.ofText text
  · rw [← same, ConfigVar.setVal_same]
    simp
  · by_cases returns : ∀ entry ∈ var.cbs.entries, entry.2 var.val (type.ofText text) = false
    · rw [ConfigVar.setVal_returns same returns]
      apply iff_of_false
      · intro rejects
        cases rejects.1
      · intro both
        exact both.2 returns
    · rw [ConfigVar.setVal_throws same returns]
      exact iff_of_true ⟨rfl, rfl⟩ ⟨Ne.symm same, returns⟩

/-- A value that comes back changes nothing. -/
theorem fromStr_of_roundTrips {type : Integral} (var : ConfigVar type.Value)
    (back : type.RoundTrips var.val) :
    var.fromStr (fun text => some (type.ofText text)) (type.toText var.val) = (true, var, []) := by
  rw [ConfigVar.fromStr]
  simp only
  rw [back, ConfigVar.setVal_same]

/-- Which values survive printing and reading, and which texts are rejected. -/
theorem lexicalCast_iff (type : Integral) (var : ConfigVar type.Value) :
    (type.RoundTrips var.val ↔ (type.IsCharacter → var.val.1 = 0) ∧ var.val.1 < 2 ^ 63) ∧
    (type.RoundTrips var.val →
      var.fromStr (fun text => some (type.ofText text)) (type.toText var.val) =
        (true, var, [])) ∧
    (∀ text, Rejects var text ↔ type.ofText text ≠ var.val ∧
      ¬∀ entry ∈ var.cbs.entries, entry.2 var.val (type.ofText text) = false) ∧
    ¬∀ text, ¬type.IsDecimal text → Rejects var text := by
  refine ⟨type.roundTrips_integral_iff var.val, fromStr_of_roundTrips var, rejects_iff var, ?_⟩
  intro all
  rcases type.exists_ofText var.val with ⟨text, malformed, same⟩
  exact ((rejects_iff var text).mp (all text malformed)).1 same

/-- (uint64_t)-1 is read as 2 ^ 63 - 1, and "x" as 0. -/
theorem not_lexicalCast :
    (¬∀ (type : Integral) (value : type.Value), type.RoundTrips value) ∧
    ¬∀ (type : Integral) (var : ConfigVar type.Value) (text : List UInt8),
      ¬type.IsDecimal text → Rejects var text := by
  constructor
  · intro all
    have back := all (.unsigned .w64) ⟨2 ^ 64 - 1, by decide, by decide⟩
    exact absurd ((Integral.roundTrips_integral_iff _ _).mp back).2 (by decide)
  · intro all
    have rejects := all (.unsigned .w64) (.make ⟨1, by decide, by decide⟩) [120]
      (Integral.not_isDecimal_of_mem List.mem_cons_self)
    exact absurd rejects.1 (by decide)

end Config

end FiberNet
