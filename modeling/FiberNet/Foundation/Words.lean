import Mathlib.Data.Finset.Card
import Mathlib.Order.Interval.Finset.Nat

/-! # Words of bits

The bits of a word that are set, and the masks of its high bits.
-/

namespace FiberNet

variable {w : Nat}

def setBits (word : BitVec w) : Finset Nat :=
  (Finset.range w).filter fun index => word.getLsbD index = true

@[simp] theorem mem_setBits {word : BitVec w} {index : Nat} :
    index ∈ setBits word ↔ word.getLsbD index = true := by
  rw [setBits, Finset.mem_filter, Finset.mem_range]
  exact and_iff_right_of_imp BitVec.lt_of_getLsbD

@[simp] theorem setBits_zero : setBits 0#w = ∅ := by
  apply Finset.eq_empty_of_forall_notMem
  intro index
  simp

/-- The difference to a part of the bits clears them. -/
theorem sub_of_subset {word part : BitVec w}
    (inside : ∀ index, part.getLsbD index = true → word.getLsbD index = true) :
    word - part = word &&& ~~~part := by
  have disjoint : (word &&& ~~~part) &&& part = 0#w := by
    rw [BitVec.and_assoc, BitVec.and_comm (~~~part), BitVec.and_not_self]
    exact BitVec.and_zero
  have union : (word &&& ~~~part) ||| part = word := by
    apply BitVec.eq_of_getLsbD_eq
    intro index below
    have given := inside index
    rw [BitVec.getLsbD_or, BitVec.getLsbD_and, BitVec.getLsbD_not]
    revert given
    cases word.getLsbD index <;> cases part.getLsbD index <;> simp [below]
  rw [BitVec.sub_eq_iff_eq_add, BitVec.add_eq_or_of_and_eq_zero _ _ disjoint, union]

/-- `value & -value` is the lowest bit that is set. -/
theorem getLsbD_and_neg (word : BitVec w) (index : Nat) :
    (word &&& -word).getLsbD index = true ↔
      word.getLsbD index = true ∧ ∀ lower < index, word.getLsbD lower = false := by
  rw [BitVec.getLsbD_and, BitVec.getLsbD_neg]
  cases set : word.getLsbD index with
  | false => simp
  | true =>
      have below := BitVec.lt_of_getLsbD set
      simp [below]

/-- `value -= value & -value` clears one bit. -/
theorem setBits_sub_lowest {word : BitVec w} (nonzero : word ≠ 0#w) :
    ∃ lowest ∈ setBits word,
      setBits (word - (word &&& -word)) = (setBits word).erase lowest := by
  have set := BitVec.getLsbD_true_ctz_of_ne_zero nonzero
  have first (lower : Nat) (below : lower < word.ctz.toNat) : word.getLsbD lower = false :=
    BitVec.getLsbD_false_of_lt_ctz below
  have only (index : Nat) : (word &&& -word).getLsbD index = true ↔ index = word.ctz.toNat := by
    rw [getLsbD_and_neg]
    constructor
    · rintro ⟨chosen, lower⟩
      rcases lt_trichotomy index word.ctz.toNat with below | same | above
      · rw [first index below] at chosen
        cases chosen
      · exact same
      · rw [lower _ above] at set
        cases set
    · intro same
      rw [same]
      exact ⟨set, first⟩
  have inside (index : Nat) (chosen : (word &&& -word).getLsbD index = true) :
      word.getLsbD index = true := ((getLsbD_and_neg word index).mp chosen).1
  refine ⟨word.ctz.toNat, mem_setBits.mpr set, ?_⟩
  ext index
  rw [sub_of_subset inside, mem_setBits, Finset.mem_erase, mem_setBits, Ne, ← only index,
    BitVec.getLsbD_and, BitVec.getLsbD_not, Bool.and_eq_true, and_comm]
  constructor
  · rintro ⟨kept, chosen⟩
    simp only [Bool.and_eq_true, Bool.not_eq_true'] at kept
    exact ⟨by simp [kept.2], chosen⟩
  · rintro ⟨kept, chosen⟩
    rw [Bool.not_eq_true] at kept
    rw [kept, decide_eq_true (BitVec.lt_of_getLsbD chosen)]
    exact ⟨rfl, chosen⟩

/-! ## Masks -/

/-- The mask of the high `length` bits. -/
def prefixMask (w length : Nat) : BitVec w :=
  ~~~BitVec.ofNat w (2 ^ (w - length) - 1)

theorem getLsbD_prefixMask (length index : Nat) :
    (prefixMask w length).getLsbD index = decide (w - length ≤ index ∧ index < w) := by
  rw [prefixMask, BitVec.getLsbD_not, BitVec.getLsbD_ofNat, Nat.testBit_two_pow_sub_one]
  by_cases below : index < w <;> simp [below, ← decide_not, not_lt]

theorem setBits_prefixMask (length : Nat) :
    setBits (prefixMask w length) = Finset.Ico (w - length) w := by
  ext index
  rw [mem_setBits, getLsbD_prefixMask, Finset.mem_Ico, decide_eq_true_iff]

theorem card_setBits_prefixMask {length : Nat} (within : length ≤ w) :
    (setBits (prefixMask w length)).card = length := by
  rw [setBits_prefixMask, Nat.card_Ico]
  omega

theorem and_or_and_not (word mask : BitVec w) : (word &&& mask) ||| (word &&& ~~~mask) = word := by
  apply BitVec.eq_of_getLsbD_eq
  intro index below
  simp only [BitVec.getLsbD_or, BitVec.getLsbD_and, BitVec.getLsbD_not, below]
  cases word.getLsbD index <;> cases mask.getLsbD index <;> rfl

theorem and_and_and_not (word mask : BitVec w) :
    (word &&& mask) &&& (word &&& ~~~mask) = 0#w := by
  apply BitVec.eq_of_getLsbD_eq
  intro index below
  simp only [BitVec.getLsbD_and, BitVec.getLsbD_not, BitVec.getLsbD_zero, below]
  cases word.getLsbD index <;> cases mask.getLsbD index <;> rfl

theorem or_not_mask (word mask : BitVec w) :
    word ||| ~~~mask = (word &&& mask) ||| ~~~mask := by
  apply BitVec.eq_of_getLsbD_eq
  intro index below
  simp only [BitVec.getLsbD_or, BitVec.getLsbD_and, BitVec.getLsbD_not, below]
  cases word.getLsbD index <;> cases mask.getLsbD index <;> rfl

theorem toNat_and_prefixMask (word : BitVec w) (length : Nat) :
    (word &&& prefixMask w length).toNat =
      word.toNat / 2 ^ (w - length) * 2 ^ (w - length) := by
  apply Nat.eq_of_testBit_eq
  intro index
  rw [BitVec.testBit_toNat, BitVec.getLsbD_and, getLsbD_prefixMask, Nat.testBit_mul_two_pow,
    Nat.testBit_div_two_pow, BitVec.testBit_toNat]
  by_cases low : w - length ≤ index
  · rw [Nat.sub_add_cancel low]
    by_cases below : index < w
    · simp [low, below]
    · simp [BitVec.getLsbD_of_ge word index (by omega)]
  · simp [low]

theorem toNat_or_not_prefixMask (word : BitVec w) (length : Nat) :
    (word ||| ~~~prefixMask w length).toNat =
      word.toNat / 2 ^ (w - length) * 2 ^ (w - length) + (2 ^ (w - length) - 1) := by
  have low : (~~~prefixMask w length).toNat = 2 ^ (w - length) - 1 := by
    rw [prefixMask, BitVec.not_not, BitVec.toNat_ofNat, Nat.mod_eq_of_lt]
    have power : 2 ^ (w - length) ≤ 2 ^ w := Nat.pow_le_pow_right (by decide) (Nat.sub_le w length)
    have positive := Nat.two_pow_pos (w - length)
    omega
  have positive := Nat.two_pow_pos (w - length)
  rw [or_not_mask, BitVec.toNat_or, toNat_and_prefixMask, low, Nat.mul_comm,
    Nat.two_pow_add_eq_or_of_lt (by omega)]

/-- The words between the least and the greatest of one prefix have that prefix. -/
theorem same_prefix_of_between {word other : BitVec w} {length : Nat}
    (above : (word &&& prefixMask w length).toNat ≤ other.toNat)
    (below : other.toNat ≤ (word ||| ~~~prefixMask w length).toNat) :
    other &&& prefixMask w length = word &&& prefixMask w length := by
  rw [toNat_and_prefixMask] at above
  rw [toNat_or_not_prefixMask] at below
  have positive := Nat.two_pow_pos (w - length)
  have quotient : other.toNat / 2 ^ (w - length) = word.toNat / 2 ^ (w - length) := by
    apply Nat.div_eq_of_lt_le
    · exact above
    · rw [Nat.add_mul, Nat.one_mul]
      omega
  apply BitVec.eq_of_toNat_eq
  rw [toNat_and_prefixMask, toNat_and_prefixMask, quotient]

end FiberNet
