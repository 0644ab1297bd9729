import Mathlib.Algebra.Group.Nat.Defs
import Mathlib.Data.List.Basic
import Mathlib.Data.Nat.Basic

/-! # Streams of bits

Numbers of a given width as their bits, the most significant first. Numbers of one width are
regrouped to numbers of another one by way of the bits of all of them.
-/

namespace FiberNet

/-- The low `width` bits of a number. -/
def bits : (width number : Nat) → List Bool
  | 0, _ => []
  | width + 1, number => number.testBit width :: bits width number

@[simp] theorem length_bits (width number : Nat) : (bits width number).length = width := by
  induction width with
  | zero => rfl
  | succ width ih => rw [bits, List.length_cons, ih]

theorem bits_zero (width : Nat) : bits width 0 = List.replicate width false := by
  induction width with
  | zero => rfl
  | succ width ih => rw [bits, ih, Nat.zero_testBit, List.replicate_succ]

theorem bits_congr {width left right : Nat}
    (same : ∀ index < width, left.testBit index = right.testBit index) :
    bits width left = bits width right := by
  induction width with
  | zero => rfl
  | succ width ih =>
      rw [bits, bits, same width (Nat.lt_succ_self width),
        ih fun index below => same index (Nat.lt_succ_of_lt below)]

theorem testBit_of_bits {width left right : Nat} (same : bits width left = bits width right) :
    ∀ index < width, left.testBit index = right.testBit index := by
  induction width with
  | zero =>
      intro index below
      exact absurd below (Nat.not_lt_zero index)
  | succ width ih =>
      intro index below
      rw [bits, bits, List.cons.injEq] at same
      rcases Nat.lt_succ_iff_lt_or_eq.mp below with inside | rfl
      · exact ih same.2 index inside
      · exact same.1

theorem bits_inj {width left right : Nat} (leftFits : left < 2 ^ width)
    (rightFits : right < 2 ^ width) (same : bits width left = bits width right) :
    left = right := by
  apply Nat.eq_of_testBit_eq
  intro index
  rcases Nat.lt_or_ge index width with inside | outside
  · exact testBit_of_bits same index inside
  · have power := Nat.pow_le_pow_right (n := 2) (by decide) outside
    rw [Nat.testBit_lt_two_pow (by omega), Nat.testBit_lt_two_pow (by omega)]

theorem bits_mod (width number : Nat) : bits width (number % 2 ^ width) = bits width number := by
  apply bits_congr
  intro index below
  rw [Nat.testBit_mod_two_pow, decide_eq_true below, Bool.true_and]

/-- The high bits and the low ones. -/
theorem bits_add (high low number : Nat) :
    bits (high + low) number = bits high (number / 2 ^ low) ++ bits low number := by
  induction high with
  | zero => rw [Nat.zero_add, bits, List.nil_append]
  | succ high ih =>
      rw [Nat.succ_add, bits, bits, List.cons_append, ih, Nat.testBit_div_two_pow, Nat.add_comm]

theorem bits_split (high low number : Nat) :
    bits (high + low) number = bits high (number / 2 ^ low) ++ bits low (number % 2 ^ low) := by
  rw [bits_add, bits_mod]

/-- A number put together of two. -/
theorem bits_join {high low : Nat} (left : Nat) {right : Nat} (fits : right < 2 ^ low) :
    bits (high + low) (left * 2 ^ low + right) = bits high left ++ bits low right := by
  have positive := Nat.two_pow_pos low
  rw [bits_add, Nat.add_comm, Nat.add_mul_div_right _ _ positive, Nat.div_eq_of_lt fits,
    Nat.zero_add, ← bits_mod low (right + left * 2 ^ low), Nat.add_mul_mod_self_right,
    Nat.mod_eq_of_lt fits]

/-! ## Streams -/

def stream (width : Nat) (numbers : List Nat) : List Bool :=
  numbers.flatMap (bits width)

@[simp] theorem stream_nil (width : Nat) : stream width [] = [] := rfl

@[simp] theorem stream_cons (width number : Nat) (numbers : List Nat) :
    stream width (number :: numbers) = bits width number ++ stream width numbers := rfl

theorem stream_append (width : Nat) (left right : List Nat) :
    stream width (left ++ right) = stream width left ++ stream width right :=
  List.flatMap_append

@[simp] theorem length_stream (width : Nat) (numbers : List Nat) :
    (stream width numbers).length = width * numbers.length := by
  induction numbers with
  | nil => rfl
  | cons number numbers ih =>
      rw [stream_cons, List.length_append, length_bits, ih, List.length_cons, Nat.mul_succ,
        Nat.add_comm]

theorem stream_zeros (width count : Nat) :
    stream width (List.replicate count 0) = List.replicate (width * count) false := by
  induction count with
  | zero => rfl
  | succ count ih =>
      rw [List.replicate_succ, stream_cons, bits_zero, ih, List.replicate_append_replicate,
        Nat.mul_succ, Nat.add_comm]

/-- A stream tells the numbers, whatever follows it, if it tells how many they are. -/
theorem stream_inj {width : Nat} {left right : List Nat} {leftRest rightRest : List Bool}
    (leftFits : ∀ number ∈ left, number < 2 ^ width)
    (rightFits : ∀ number ∈ right, number < 2 ^ width) (lengths : left.length = right.length)
    (same : stream width left ++ leftRest = stream width right ++ rightRest) : left = right := by
  induction left generalizing right with
  | nil =>
      rw [List.length_nil] at lengths
      exact (List.length_eq_zero_iff.mp lengths.symm).symm
  | cons number left ih =>
      cases right with
      | nil => cases lengths
      | cons other right =>
          rcases List.forall_mem_cons.mp leftFits with ⟨fits, leftLater⟩
          rcases List.forall_mem_cons.mp rightFits with ⟨otherFits, rightLater⟩
          rw [stream_cons, stream_cons, List.append_assoc, List.append_assoc] at same
          rcases List.append_inj same (by rw [length_bits, length_bits]) with ⟨first, rest⟩
          rw [bits_inj fits otherFits first,
            ih leftLater rightLater (Nat.succ.inj lengths) rest]

end FiberNet
