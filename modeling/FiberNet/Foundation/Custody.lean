import Mathlib.Logic.Function.Basic

/-! # Custody of resources

Owners hold at most one resource each. A resource is live from its acquisition to its
release. What is live and not held by anybody has been lost.
-/

namespace FiberNet

structure Custody (Owner : Type u) (Resource : Type v) where
  holds : Owner → Option Resource
  live : Resource → Prop
  lost : Resource → Prop

namespace Custody

variable {Owner : Type u} {Resource : Type v}

/-- Every live resource is held by exactly one owner or lost, and only live ones are held. -/
structure Exact (custody : Custody Owner Resource) : Prop where
  live : ∀ {owner resource}, custody.holds owner = some resource → custody.live resource
  single : ∀ {left right resource}, custody.holds left = some resource →
    custody.holds right = some resource → left = right
  accounted : ∀ {resource}, custody.live resource →
    (∃ owner, custody.holds owner = some resource) ∨ custody.lost resource
  apart : ∀ {owner resource}, custody.holds owner = some resource → ¬custody.lost resource
  kept : ∀ {resource}, custody.lost resource → custody.live resource

theorem Exact.congr {custody other : Custody Owner Resource} (exact : custody.Exact)
    (holds : ∀ owner, other.holds owner = custody.holds owner)
    (live : ∀ resource, other.live resource ↔ custody.live resource)
    (lost : ∀ resource, other.lost resource ↔ custody.lost resource) : other.Exact := by
  have same : other = custody := by
    cases other
    cases custody
    congr
    · funext owner
      exact holds owner
    · funext resource
      exact propext (live resource)
    · funext resource
      exact propext (lost resource)
  rw [same]
  exact exact

variable {custody : Custody Owner Resource} {owner : Owner} {resource : Resource}

/-- Nobody else holds what an owner does. -/
theorem Exact.others (exact : custody.Exact) (held : custody.holds owner = some resource)
    {other : Owner} (different : other ≠ owner) : custody.holds other ≠ some resource :=
  fun taken => different (exact.single taken held)

section

variable [DecidableEq Owner]

/-- An owner takes a resource that was not live. -/
def acquire (custody : Custody Owner Resource) (owner : Owner) (resource : Resource) :
    Custody Owner Resource where
  holds := Function.update custody.holds owner (some resource)
  live other := other = resource ∨ custody.live other
  lost := custody.lost

/-- An owner gives its resource back. -/
def release (custody : Custody Owner Resource) (owner : Owner) (resource : Resource) :
    Custody Owner Resource where
  holds := Function.update custody.holds owner none
  live other := other ≠ resource ∧ custody.live other
  lost := custody.lost

/-- An owner goes away with its resource. -/
def lose (custody : Custody Owner Resource) (owner : Owner) (resource : Resource) :
    Custody Owner Resource where
  holds := Function.update custody.holds owner none
  live := custody.live
  lost other := other = resource ∨ custody.lost other

theorem acquire_holds (other : Owner) :
    (custody.acquire owner resource).holds other =
      if other = owner then some resource else custody.holds other :=
  Function.update_apply custody.holds owner (some resource) other

theorem release_holds (other : Owner) :
    (custody.release owner resource).holds other =
      if other = owner then none else custody.holds other :=
  Function.update_apply custody.holds owner none other

theorem lose_holds (other : Owner) :
    (custody.lose owner resource).holds other =
      if other = owner then none else custody.holds other :=
  Function.update_apply custody.holds owner none other

/-- What an owner other than one that ends up with nothing holds. -/
theorem of_ite_none {other : Owner} {found : Option Resource} {taken : Resource}
    (held : (if other = owner then none else found) = some taken) :
    other ≠ owner ∧ found = some taken := by
  split at held
  · cases held
  · rename_i different
    exact ⟨different, held⟩

theorem Exact.acquire (exact : custody.Exact) (empty : custody.holds owner = none)
    (free : ¬custody.live resource) : (custody.acquire owner resource).Exact where
  live := by
    intro other taken held
    rw [acquire_holds] at held
    split at held
    · exact .inl (Option.some.inj held).symm
    · exact .inr (exact.live held)
  single := by
    intro left right taken first second
    have fresh : ∀ other, custody.holds other ≠ some resource :=
      fun other held => free (exact.live held)
    rw [acquire_holds] at first second
    split at first <;> split at second
    · rename_i left_same right_same
      exact left_same.trans right_same.symm
    · cases first
      exact absurd second (fresh right)
    · cases second
      exact absurd first (fresh left)
    · exact exact.single first second
  accounted := by
    intro taken live
    rcases live with equal | live
    · subst equal
      exact .inl ⟨owner, by rw [acquire_holds, if_pos rfl]⟩
    · rcases exact.accounted live with ⟨holder, held⟩ | lost
      · have different : holder ≠ owner := by
          intro same
          subst same
          cases empty.symm.trans held
        exact .inl ⟨holder, by rw [acquire_holds, if_neg different, held]⟩
      · exact .inr lost
  apart := by
    intro other taken held lost
    rw [acquire_holds] at held
    split at held
    · cases held
      exact free (exact.kept lost)
    · exact exact.apart held lost
  kept lost := .inr (exact.kept lost)

theorem Exact.release (exact : custody.Exact) (held : custody.holds owner = some resource) :
    (custody.release owner resource).Exact where
  live := by
    intro other taken found
    rcases of_ite_none ((release_holds other).symm.trans found) with ⟨different, found⟩
    refine ⟨?_, exact.live found⟩
    intro same
    exact exact.others held different (same ▸ found)
  single := by
    intro left right taken first second
    rcases of_ite_none ((release_holds left).symm.trans first) with ⟨_, first⟩
    rcases of_ite_none ((release_holds right).symm.trans second) with ⟨_, second⟩
    exact exact.single first second
  accounted := by
    intro taken live
    rcases exact.accounted live.2 with ⟨holder, found⟩ | lost
    · have different : holder ≠ owner := by
        intro same
        subst same
        exact live.1 (Option.some.inj (found.symm.trans held))
      exact .inl ⟨holder, by rw [release_holds, if_neg different, found]⟩
    · exact .inr lost
  apart := by
    intro other taken found
    rcases of_ite_none ((release_holds other).symm.trans found) with ⟨_, found⟩
    exact exact.apart found
  kept := by
    intro taken lost
    refine ⟨?_, exact.kept lost⟩
    intro same
    exact exact.apart held (same ▸ lost)

theorem Exact.lose (exact : custody.Exact) (held : custody.holds owner = some resource) :
    (custody.lose owner resource).Exact where
  live := by
    intro other taken found
    rcases of_ite_none ((lose_holds other).symm.trans found) with ⟨_, found⟩
    exact exact.live found
  single := by
    intro left right taken first second
    rcases of_ite_none ((lose_holds left).symm.trans first) with ⟨_, first⟩
    rcases of_ite_none ((lose_holds right).symm.trans second) with ⟨_, second⟩
    exact exact.single first second
  accounted := by
    intro taken live
    rcases exact.accounted live with ⟨holder, found⟩ | lost
    · by_cases same : holder = owner
      · subst same
        exact .inr (.inl (Option.some.inj (found.symm.trans held)))
      · exact .inl ⟨holder, by rw [lose_holds, if_neg same, found]⟩
    · exact .inr (.inr lost)
  apart := by
    intro other taken found lost
    rcases of_ite_none ((lose_holds other).symm.trans found) with ⟨different, found⟩
    rcases lost with same | lost
    · exact exact.others held different (same ▸ found)
    · exact exact.apart found lost
  kept := by
    intro taken lost
    rcases lost with same | lost
    · subst same
      exact exact.live held
    · exact exact.kept lost

end

end Custody

end FiberNet
