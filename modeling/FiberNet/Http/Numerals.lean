import FiberNet.Http.Parser

/-! # Numbers as texts of digits -/

namespace FiberNet

namespace Http

/-- A number as the digits of a base, in lower case. -/
def numeral (base number : Nat) : List UInt8 :=
  (Nat.toDigits base number).map fun char => UInt8.ofNat char.toNat

def digitByte (value : Nat) : UInt8 :=
  UInt8.ofNat (Nat.digitChar value).toNat

theorem digitByte_spec : ∀ value < 16, isHex (digitByte value) = true ∧ hexToDec (digitByte value) = value := by
  decide

theorem isDigit_digitByte {base value : Nat} (within : base ≤ 16) (below : value < base) :
    isDigit base (digitByte value) = true := by
  rcases digitByte_spec value (by omega) with ⟨hex, same⟩
  rw [isDigit, hex, same, decide_eq_true below]
  rfl

theorem numeral_eq {base : Nat} (many : 1 < base) (number : Nat) :
    numeral base number =
      if number < base then [digitByte number]
      else numeral base (number / base) ++ [digitByte (number % base)] := by
  rw [numeral, Nat.toDigits_eq_if many]
  split
  · rfl
  · rw [List.map_append]
    rfl

theorem numeral_ne_nil (base number : Nat) : numeral base number ≠ [] := by
  rw [numeral, Ne, List.map_eq_nil_iff]
  exact Nat.toDigits_ne_nil

theorem length_numeral_le_iff {base count number : Nat} (many : 1 < base) (some : 0 < count) :
    (numeral base number).length ≤ count ↔ number < base ^ count := by
  rw [numeral, List.length_map]
  exact Nat.length_toDigits_le_iff many some

theorem digitsValue_concat (base : Nat) (digits : List UInt8) (last : UInt8) :
    digitsValue base (digits ++ [last]) = digitsValue base digits * base + hexToDec last := by
  rw [digitsValue, List.foldl_append]
  rfl

section

variable {base : Nat} (many : 1 < base) (within : base ≤ 16)

include many within

/-- The digits of a number are read back. -/
theorem digitsValue_numeral (number : Nat) : digitsValue base (numeral base number) = number := by
  induction number using Nat.strong_induction_on with
  | _ number induction =>
      rw [numeral_eq many]
      split
      · rename_i below
        rw [digitsValue, List.foldl_cons, List.foldl_nil, Nat.zero_mul, Nat.zero_add]
        exact (digitByte_spec number (by omega)).2
      · have smaller : number / base < number := Nat.div_lt_self (by omega) many
        have last : number % base < base := Nat.mod_lt number (by omega)
        rw [digitsValue_concat, induction _ smaller, (digitByte_spec _ (by omega)).2]
        exact Nat.div_add_mod' number base

theorem isDigit_of_mem_numeral {number : Nat} {byte : UInt8}
    (member : byte ∈ numeral base number) : isDigit base byte = true := by
  induction number using Nat.strong_induction_on with
  | _ number induction =>
      rw [numeral_eq many] at member
      split at member
      · rename_i below
        rw [List.mem_singleton.mp member]
        exact isDigit_digitByte within below
      · have smaller : number / base < number := Nat.div_lt_self (by omega) many
        rcases List.mem_append.mp member with earlier | last
        · exact induction _ smaller earlier
        · rw [List.mem_singleton.mp last]
          exact isDigit_digitByte within (Nat.mod_lt number (by omega))

end

/-! ## What `strtol` reads -/

theorem isDigit_ten {byte : UInt8} (digit : isDigit 10 byte = true) :
    48 ≤ byte.toNat ∧ byte.toNat ≤ 57 := by
  rw [isDigit, Bool.and_eq_true, decide_eq_true_iff] at digit
  rcases digit with ⟨hex, small⟩
  rw [isHex] at hex
  rw [hexToDec] at small
  simp only [Bool.or_eq_true, Bool.and_eq_true, decide_eq_true_iff] at hex
  split at small
  · omega
  · split at small
    · omega
    · omega

theorem not_isSpace_of_isDigit {byte : UInt8} (digit : isDigit 10 byte = true) :
    isSpace byte = false := by
  have range := isDigit_ten digit
  rw [isSpace]
  simp
  omega

/-- A text of digits, up to the first byte that is none. -/
theorem strtol_digits {digits rest : List UInt8} (nonempty : digits ≠ [])
    (all : ∀ byte ∈ digits, isDigit 10 byte = true)
    (stops : rest.takeWhile (isDigit 10) = []) :
    strtol 10 (digits ++ rest) = min (digitsValue 10 digits : Int) (2 ^ 63 - 1) ∧
    strtol 10 (45 :: (digits ++ rest)) =
      max (-(digitsValue 10 digits : Int)) (-2 ^ 63) := by
  have taken : (digits ++ rest).takeWhile (isDigit 10) = digits := by
    rw [List.takeWhile_append_of_pos all, stops, List.append_nil]
  constructor
  · cases digits with
    | nil => exact absurd rfl nonempty
    | cons first digits =>
        have digit := all first List.mem_cons_self
        have range := isDigit_ten digit
        have minus : first ≠ 45 := by
          intro same
          rw [same] at range
          exact absurd range (by decide)
        have plus : first ≠ 43 := by
          intro same
          rw [same] at range
          exact absurd range (by decide)
        have trimmed : (first :: digits ++ rest).dropWhile isSpace =
            first :: digits ++ rest := by
          rw [List.cons_append, List.dropWhile_cons_of_neg (by simp [not_isSpace_of_isDigit digit])]
        rw [strtol, trimmed]
        simp only [List.cons_append, List.headD_cons, minus, plus, or_self, if_false]
        rw [← List.cons_append]
        simp only [Nat.reduceEqDiff, false_and, if_false, taken]
  · rw [strtol]
    have trimmed : (45 :: (digits ++ rest)).dropWhile isSpace = 45 :: (digits ++ rest) := rfl
    simp only [trimmed, List.headD_cons, true_or, if_true, List.tail_cons, Nat.reduceEqDiff,
      false_and, if_false, taken]

end Http

end FiberNet
