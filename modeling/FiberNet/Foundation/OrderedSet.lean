import Mathlib.Data.List.Sort
import Mathlib.Order.Defs.Unbundled

/-! # Ordered sets over a comparator

`std::set` with a user comparator, as the list of its elements in iteration
order. Two elements are equivalent when neither is less than the other; an
insertion next to an equivalent element changes nothing, and a search stops at
the first element that is not less than the key.
-/

namespace FiberNet

namespace OrderedSet

variable {α : Type u} (less : α → α → Bool)

/-- `set::insert`: before the first element that is not less than the new one,
unless that element is equivalent to it. -/
def insert (value : α) : List α → List α
  | [] => [value]
  | head :: tail =>
      if less head value then head :: insert value tail
      else if less value head then value :: head :: tail
      else head :: tail

/-- `set::find`: the position of an equivalent element, `none` for `end()`. -/
def find (value : α) : List α → Option Nat
  | [] => none
  | head :: tail =>
      if less head value then (find value tail).map (· + 1)
      else if less value head then none
      else some 0

/-- The elements in iteration order of a set. -/
@[reducible] def Sorted (elements : List α) : Prop :=
  elements.Pairwise fun earlier later => less earlier later = true

variable {less} [order : IsStrictTotalOrder α fun left right => less left right = true]

variable (less) in
theorem less_irrefl (value : α) : less value value = false := by
  cases equal : less value value with
  | false => rfl
  | true => exact absurd equal (irrefl_of (less · · = true) value)

theorem eq_of_not_less {left right : α} (notBefore : less left right = false)
    (notAfter : less right left = false) : left = right := by
  rcases trichotomous_of (less · · = true) left right with before | equal | after
  · simp [notBefore] at before
  · exact equal
  · simp [notAfter] at after

theorem mem_insert {value element : α} {elements : List α} :
    element ∈ insert less value elements ↔ element = value ∨ element ∈ elements := by
  induction elements with
  | nil => simp [insert]
  | cons head tail induction =>
      unfold insert
      split
      · simp only [List.mem_cons, induction]
        tauto
      · split
        · simp
        · rename_i notBefore notAfter
          have equal : head = value := eq_of_not_less
            (by simpa using notBefore) (by simpa using notAfter)
          simp [equal]

theorem insert_sorted {value : α} {elements : List α}
    (sorted : Sorted less elements) : Sorted less (insert less value elements) := by
  induction elements with
  | nil => simp [insert]
  | cons head tail induction =>
      have parts := List.pairwise_cons.mp sorted
      unfold insert
      split
      · rename_i before
        apply List.pairwise_cons.mpr
        refine ⟨fun element member => ?_, induction parts.2⟩
        rcases mem_insert.mp member with equal | member
        · simpa [equal] using before
        · exact parts.1 element member
      · split
        · rename_i after
          apply List.pairwise_cons.mpr
          refine ⟨fun element member => ?_, sorted⟩
          rcases List.mem_cons.mp member with equal | member
          · simpa [equal] using after
          · exact trans_of (less · · = true) after (parts.1 element member)
        · exact sorted

variable (less) in
/-- After an insertion the new element is the first one of the set, or some
older element comes before it. -/
theorem find_insert_or_less (value : α) (elements : List α) :
    find less value (insert less value elements) = some 0 ∨
      ∃ earlier ∈ elements, less earlier value = true := by
  cases elements with
  | nil => exact .inl (by simp [insert, find, less_irrefl less])
  | cons head tail =>
      cases before : less head value with
      | true => exact .inr ⟨head, List.mem_cons_self, before⟩
      | false =>
          cases after : less value head with
          | true => exact .inl (by simp [insert, find, before, after, less_irrefl less])
          | false => exact .inl (by simp [insert, find, before, after])

/-- A member of a set is found, at its own position. -/
theorem find_of_mem {value : α} {elements : List α}
    (sorted : Sorted less elements) (member : value ∈ elements) :
    ∃ position, find less value elements = some position ∧
      elements[position]? = some value := by
  induction elements with
  | nil => cases member
  | cons head tail induction =>
      have parts := List.pairwise_cons.mp sorted
      rcases List.mem_cons.mp member with equal | member
      · subst equal
        exact ⟨0, by simp [find, less_irrefl less], rfl⟩
      · rcases induction parts.2 member with ⟨position, found, here⟩
        refine ⟨position + 1, ?_, by simpa using here⟩
        simp [find, parts.1 value member, found]

theorem mem_of_find {value : α} {elements : List α} {position : Nat}
    (found : find less value elements = some position) : value ∈ elements := by
  induction elements generalizing position with
  | nil => cases found
  | cons head tail induction =>
      unfold find at found
      split at found
      · rcases Option.map_eq_some_iff.mp found with ⟨later, inTail, _⟩
        exact List.mem_cons_of_mem head (induction inTail)
      · split at found
        · cases found
        · rename_i notBefore notAfter
          have notLess : less value head = false := by simpa using notAfter
          have notGreater : less head value = false := by simpa using notBefore
          rw [eq_of_not_less notLess notGreater]
          exact List.mem_cons_self

omit order in
/-- The elements before the first one failing a downward closed test are
exactly the elements that pass it. -/
theorem mem_takeWhile_iff {test : α → Bool} {elements : List α}
    (sorted : Sorted less elements)
    (downward : ∀ earlier later, less earlier later = true →
      test later = true → test earlier = true) (element : α) :
    element ∈ elements.takeWhile test ↔ element ∈ elements ∧ test element = true := by
  induction elements with
  | nil => simp
  | cons head tail induction =>
      have parts := List.pairwise_cons.mp sorted
      cases passes : test head with
      | true =>
          simp only [List.takeWhile_cons, passes, if_true, List.mem_cons,
            induction parts.2]
          constructor
          · rintro (equal | ⟨member, tested⟩)
            · exact ⟨.inl equal, equal ▸ passes⟩
            · exact ⟨.inr member, tested⟩
          · rintro ⟨equal | member, tested⟩
            · exact .inl equal
            · exact .inr ⟨member, tested⟩
      | false =>
          simp only [List.takeWhile_cons, passes, Bool.false_eq_true, if_false,
            List.not_mem_nil, false_iff, List.mem_cons]
          rintro ⟨equal | member, tested⟩
          · simp [← equal, tested] at passes
          · simp [downward head element (parts.1 element member) tested] at passes

omit order in
/-- The elements from the first one failing a downward closed test on are
exactly the elements that fail it. -/
theorem mem_dropWhile_iff {test : α → Bool} {elements : List α}
    (sorted : Sorted less elements)
    (downward : ∀ earlier later, less earlier later = true →
      test later = true → test earlier = true) (element : α) :
    element ∈ elements.dropWhile test ↔ element ∈ elements ∧ test element = false := by
  induction elements with
  | nil => simp
  | cons head tail induction =>
      have parts := List.pairwise_cons.mp sorted
      cases passes : test head with
      | true =>
          simp only [List.dropWhile_cons, passes, if_true, List.mem_cons,
            induction parts.2]
          constructor
          · exact fun ⟨member, tested⟩ => ⟨.inr member, tested⟩
          · rintro ⟨equal | member, tested⟩
            · simp [equal, passes] at tested
            · exact ⟨member, tested⟩
      | false =>
          simp only [List.dropWhile_cons, passes, Bool.false_eq_true, if_false]
          refine ⟨fun member => ⟨member, ?_⟩, And.left⟩
          rcases List.mem_cons.mp member with equal | member
          · exact equal ▸ passes
          · cases tested : test element with
            | false => rfl
            | true =>
                simp [downward head element (parts.1 element member) tested] at passes

/-- Erasing at the position where a member was found removes that member and
nothing else. -/
theorem mem_eraseIdx_iff {elements : List α} {position : Nat} {value : α}
    (sorted : Sorted less elements) (here : elements[position]? = some value)
    (element : α) :
    element ∈ elements.eraseIdx position ↔ element ∈ elements ∧ element ≠ value := by
  induction elements generalizing position with
  | nil => simp at here
  | cons head tail induction =>
      have parts := List.pairwise_cons.mp sorted
      cases position with
      | zero =>
          simp only [List.getElem?_cons_zero, Option.some.injEq] at here
          subst here
          simp only [List.eraseIdx_zero, List.tail_cons, List.mem_cons]
          refine ⟨fun member => ⟨.inr member, fun equal => ?_⟩, fun ⟨member, different⟩ =>
            member.resolve_left different⟩
          have before := parts.1 element member
          rw [equal, less_irrefl less] at before
          cases before
      | succ position =>
          simp only [List.getElem?_cons_succ] at here
          have member : value ∈ tail := List.mem_of_getElem? here
          simp only [List.eraseIdx_cons_succ, List.mem_cons, induction parts.2 here]
          constructor
          · rintro (equal | ⟨inTail, different⟩)
            · refine ⟨.inl equal, fun same => ?_⟩
              have before := parts.1 value member
              rw [← equal, same, less_irrefl less] at before
              cases before
            · exact ⟨.inr inTail, different⟩
          · rintro ⟨equal | inTail, different⟩
            · exact .inl equal
            · exact .inr ⟨inTail, different⟩

/-- Sets with the same members are the same list. -/
theorem eq_of_mem_iff {left right : List α} (leftSorted : Sorted less left)
    (rightSorted : Sorted less right)
    (same : ∀ value, value ∈ left ↔ value ∈ right) : left = right := by
  have irreflexive : Std.Irrefl fun first second : α => less first second = true :=
    ⟨irrefl_of (less · · = true)⟩
  exact List.Pairwise.eq_of_mem_iff leftSorted rightSorted same

end OrderedSet

end FiberNet
