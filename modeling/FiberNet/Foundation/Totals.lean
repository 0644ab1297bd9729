import Mathlib.Algebra.BigOperators.Group.Finset.Basic
import Mathlib.Data.Set.Card

/-! # Totals over a table

A weight summed over the entries of a table changes, when one entry is replaced, by the
weights of the old and the new entry.
-/

namespace FiberNet

variable {Index Entry : Type} [DecidableEq Index]

theorem sum_update (indices : Finset Index) (table : Index → Entry) (weight : Entry → Nat)
    {index : Index} (member : index ∈ indices) (entry : Entry) :
    (∑ other ∈ indices, weight (Function.update table index entry other)) +
        weight (table index) =
      (∑ other ∈ indices, weight (table other)) + weight entry := by
  have rest : ∑ other ∈ indices.erase index,
      weight (Function.update table index entry other) =
        ∑ other ∈ indices.erase index, weight (table other) := by
    apply Finset.sum_congr rfl
    intro other erased
    rw [Function.update_of_ne (Finset.ne_of_mem_erase erased)]
  rw [← Finset.add_sum_erase _ _ member, ← Finset.add_sum_erase _ _ member, rest,
    Function.update_self]
  omega

/-- The number of the entries that are counted, in a table of any size. -/
theorem ncard_update (table : Index → Entry) (Counts : Entry → Prop) [DecidablePred Counts]
    (finite : {other | Counts (table other)}.Finite) (index : Index) (entry : Entry) :
    {other | Counts (Function.update table index entry other)}.Finite ∧
      {other | Counts (Function.update table index entry other)}.ncard +
          (if Counts (table index) then 1 else 0) =
        {other | Counts (table other)}.ncard + if Counts entry then 1 else 0 := by
  have erased : {other | Counts (Function.update table index entry other)} \ {index} =
      {other | Counts (table other)} \ {index} := by
    ext other
    by_cases same : other = index
    · simp [same]
    · simp [same]
  have split : ∀ indices : Set Index, indices.Finite →
      indices.ncard = (indices \ {index}).ncard + (open Classical in if index ∈ indices then 1 else 0) := by
    intro indices finite
    split
    · rename_i member
      exact (Set.ncard_sdiff_singleton_add_one member finite).symm
    · rename_i absent
      rw [Set.sdiff_singleton_eq_self absent, Nat.add_zero]
  have finite_update : {other | Counts (Function.update table index entry other)}.Finite := by
    apply (finite.insert index).subset
    intro other counts
    by_cases same : other = index
    · exact .inl same
    · rw [Set.mem_ofPred_eq, Function.update_of_ne same] at counts
      exact .inr counts
  refine ⟨finite_update, ?_⟩
  rw [split _ finite_update, split _ finite, erased]
  simp only [Set.mem_ofPred_eq, Function.update_self]
  split <;> split <;> omega

end FiberNet
