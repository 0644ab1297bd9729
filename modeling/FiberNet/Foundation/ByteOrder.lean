import Mathlib.Data.List.GetD
import Mathlib.Data.Nat.Basic
import Mathlib.Tactic.Ring

/-! # Numbers as bytes

A number of a given count of bytes, and the two orders in which memory holds them.
-/

namespace FiberNet

/-- The low `count` bytes of a number, the least significant first. -/
def toBytes : (count number : Nat) → List UInt8
  | 0, _ => []
  | count + 1, number => UInt8.ofNat number :: toBytes count (number / 256)

/-- The number that the bytes hold, the least significant first. -/
def ofBytes : List UInt8 → Nat
  | [] => 0
  | byte :: bytes => byte.toNat + 256 * ofBytes bytes

@[simp] theorem length_toBytes : ∀ count number : Nat, (toBytes count number).length = count
  | 0, _ => rfl
  | count + 1, number => by rw [toBytes, List.length_cons, length_toBytes count]

theorem ofBytes_toBytes : ∀ count number : Nat,
    ofBytes (toBytes count number) = number % 256 ^ count
  | 0, number => by rw [Nat.pow_zero, Nat.mod_one]; rfl
  | count + 1, number => by
      have parts : number % 256 ^ (count + 1) =
          number % 256 + 256 * (number / 256 % 256 ^ count) := by
        rw [Nat.pow_succ']
        exact Nat.mod_mul
      rw [toBytes, ofBytes, ofBytes_toBytes count, UInt8.toNat_ofNat', parts]

theorem ofBytes_lt : ∀ bytes : List UInt8, ofBytes bytes < 256 ^ bytes.length
  | [] => Nat.one_pos
  | byte :: bytes => by
      have rest := ofBytes_lt bytes
      have first := byte.toNat_lt
      rw [ofBytes, List.length_cons, Nat.pow_succ']
      omega

theorem toBytes_ofBytes : ∀ bytes : List UInt8, toBytes bytes.length (ofBytes bytes) = bytes
  | [] => rfl
  | byte :: bytes => by
      have first := byte.toNat_lt
      have high : (byte.toNat + 256 * ofBytes bytes) / 256 = ofBytes bytes := by omega
      have low : UInt8.ofNat (byte.toNat + 256 * ofBytes bytes) = byte := by
        apply UInt8.toNat_inj.mp
        rw [UInt8.toNat_ofNat']
        omega
      rw [ofBytes, List.length_cons, toBytes, high, low, toBytes_ofBytes bytes]

theorem testBit_ofBytes (bytes : List UInt8) (index : Nat) :
    (ofBytes bytes).testBit index = (bytes.getD (index / 8) 0).toNat.testBit (index % 8) := by
  induction bytes generalizing index with
  | nil => simp [ofBytes]
  | cons byte bytes induction =>
      rw [ofBytes, Nat.add_comm, show 256 = 2 ^ 8 from rfl,
        Nat.testBit_two_pow_mul_add _ byte.toNat_lt]
      by_cases first : index < 8
      · rw [if_pos first, Nat.div_eq_of_lt first, Nat.mod_eq_of_lt first, List.getD_cons_zero]
      · have next : index / 8 = (index - 8) / 8 + 1 := by omega
        have same : index % 8 = (index - 8) % 8 := by omega
        rw [if_neg first, induction, next, same, List.getD_cons_succ]

theorem getD_toBytes {count index : Nat} (number : Nat) (below : index < count) :
    (toBytes count number).getD index 0 = UInt8.ofNat (number / 256 ^ index) := by
  induction count generalizing index number with
  | zero => cases below
  | succ count induction =>
      rw [toBytes]
      cases index with
      | zero => rw [List.getD_cons_zero, Nat.pow_zero, Nat.div_one]
      | succ index =>
          rw [List.getD_cons_succ, induction _ (Nat.lt_of_succ_lt_succ below), Nat.div_div_eq_div_mul,
            Nat.pow_succ']

theorem testBit_byte (number index : Nat) {bit : Nat} (inside : bit < 8) :
    (UInt8.ofNat (number / 256 ^ index)).toNat.testBit bit =
      number.testBit (8 * index + bit) := by
  rw [UInt8.toNat_ofNat', Nat.testBit_mod_two_pow, decide_eq_true inside, Bool.true_and,
    show 256 = 2 ^ 8 from rfl, ← Nat.pow_mul, Nat.testBit_div_two_pow, Nat.add_comm]

inductive Endian
  | little
  | big
  deriving DecidableEq, Repr

/-- The bytes in the order of `endian`, given the least significant first, and back. -/
def Endian.arrange : Endian → List UInt8 → List UInt8
  | little, bytes => bytes
  | big, bytes => bytes.reverse

namespace Endian

@[simp] theorem arrange_arrange (endian : Endian) (bytes : List UInt8) :
    endian.arrange (endian.arrange bytes) = bytes := by
  cases endian <;> simp [arrange]

@[simp] theorem length_arrange (endian : Endian) (bytes : List UInt8) :
    (endian.arrange bytes).length = bytes.length := by
  cases endian <;> simp [arrange]

/-- The other order is the reversed one. -/
theorem arrange_reverse {host endian : Endian} (differ : endian ≠ host) (bytes : List UInt8) :
    host.arrange bytes.reverse = endian.arrange bytes := by
  cases host <;> cases endian <;> simp [arrange] at differ ⊢

end Endian

end FiberNet
