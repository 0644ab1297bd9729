import FiberNet.Foundation.OrderedMap
import FiberNet.Foundation.OrderedSet
import Mathlib.Data.List.Forall2
import Mathlib.Data.List.Lex

/-! # Values of containers

The types of containers with the orders that their library gives them, so that one container
may hold another.
-/

namespace FiberNet

/-- A type with its `operator<`. -/
structure Ordered where
  Value : Type
  less : Value → Value → Bool
  strict : IsStrictTotalOrder Value fun left right => less left right = true

namespace Ordered

instance (order : Ordered) :
    IsStrictTotalOrder order.Value fun left right => order.less left right = true :=
  order.strict

/-- `operator<` of pairs. -/
def pairLess {α β : Type} (first : α → α → Bool) (second : β → β → Bool) (left right : α × β) :
    Bool :=
  first left.1 right.1 || (!first right.1 left.1 && second left.2 right.2)

/-- `std::lexicographical_compare`. -/
def listLess {α : Type} (less : α → α → Bool) : List α → List α → Bool
  | _, [] => false
  | [], _ :: _ => true
  | head :: tail, other :: rest =>
      less head other || (!less other head && listLess less tail rest)

section

variable {α β : Type} {first : α → α → Bool} {second : β → β → Bool}
  [IsStrictTotalOrder α fun left right => first left right = true]

theorem pairLess_iff {left right : α × β} : pairLess first second left right = true ↔
    first left.1 right.1 = true ∨ left.1 = right.1 ∧ second left.2 right.2 = true := by
  rw [pairLess, Bool.or_eq_true, Bool.and_eq_true, Bool.not_eq_true']
  constructor
  · intro less
    rcases less with less | ⟨notAfter, less⟩
    · exact .inl less
    · cases before : first left.1 right.1 with
      | true => exact .inl rfl
      | false => exact .inr ⟨OrderedSet.eq_of_not_less before notAfter, less⟩
  · intro less
    rcases less with less | ⟨same, less⟩
    · exact .inl less
    · exact .inr ⟨same ▸ OrderedSet.less_irrefl first _, less⟩

instance [IsStrictTotalOrder β fun left right => second left right = true] :
    IsStrictTotalOrder (α × β) fun left right => pairLess first second left right = true where
  irrefl value less := by
    rcases pairLess_iff.mp less with less | ⟨_, less⟩
    · exact irrefl_of (first · · = true) _ less
    · exact irrefl_of (second · · = true) _ less
  trans left middle right before after := by
    rw [pairLess_iff] at *
    rcases before with before | ⟨same, before⟩
    · rcases after with after | ⟨same, _⟩
      · exact .inl (trans_of (first · · = true) before after)
      · exact .inl (same ▸ before)
    · rcases after with after | ⟨same', after⟩
      · exact .inl (same ▸ after)
      · exact .inr ⟨same.trans same', trans_of (second · · = true) before after⟩
  trichotomous left right notBefore notAfter := by
    rw [pairLess_iff, not_or] at notBefore notAfter
    have same : left.1 = right.1 := OrderedSet.eq_of_not_less
      (Bool.eq_false_of_not_eq_true notBefore.1) (Bool.eq_false_of_not_eq_true notAfter.1)
    have rest : left.2 = right.2 := OrderedSet.eq_of_not_less
      (Bool.eq_false_of_not_eq_true fun less => notBefore.2 ⟨same, less⟩)
      (Bool.eq_false_of_not_eq_true fun less => notAfter.2 ⟨same.symm, less⟩)
    exact Prod.ext same rest

theorem listLess_cons_iff {head other : α} {tail rest : List α} :
    listLess first (head :: tail) (other :: rest) = true ↔
      first head other = true ∨ head = other ∧ listLess first tail rest = true :=
  @pairLess_iff _ _ first (listLess first) _ (head, tail) (other, rest)

instance : IsStrictTotalOrder (List α) fun left right => listLess first left right = true where
  irrefl list less := by
    induction list with
    | nil => cases less
    | cons head tail induction =>
        rcases listLess_cons_iff.mp less with less | ⟨_, less⟩
        · exact irrefl_of (first · · = true) head less
        · exact induction less
  trans left := by
    induction left with
    | nil =>
        intro middle right before after
        cases right with
        | nil => cases middle <;> cases after
        | cons other rest => rfl
    | cons head tail induction =>
        intro middle right before after
        cases middle with
        | nil => cases before
        | cons second rest =>
            cases right with
            | nil => cases after
            | cons third last =>
                rw [listLess_cons_iff] at *
                rcases before with before | ⟨same, before⟩
                · rcases after with after | ⟨same, _⟩
                  · exact .inl (trans_of (first · · = true) before after)
                  · exact .inl (same ▸ before)
                · rcases after with after | ⟨same', after⟩
                  · exact .inl (same ▸ after)
                  · exact .inr ⟨same.trans same', induction _ _ before after⟩
  trichotomous left := by
    induction left with
    | nil =>
        intro right notBefore _
        cases right with
        | nil => rfl
        | cons other rest => exact absurd rfl notBefore
    | cons head tail induction =>
        intro right notBefore notAfter
        cases right with
        | nil => exact absurd rfl notAfter
        | cons other rest =>
            rw [listLess_cons_iff, not_or] at notBefore notAfter
            have same : head = other := OrderedSet.eq_of_not_less
              (Bool.eq_false_of_not_eq_true notBefore.1) (Bool.eq_false_of_not_eq_true notAfter.1)
            rw [same, induction rest (fun less => notBefore.2 ⟨same, less⟩)
              fun less => notAfter.2 ⟨same.symm, less⟩]

end

/-- Values that are compared as others are. -/
theorem strict_of_injective {α β : Type} {less : β → β → Bool}
    [IsStrictTotalOrder β fun left right => less left right = true] {view : α → β}
    (injective : Function.Injective view) :
    IsStrictTotalOrder α fun left right => less (view left) (view right) = true where
  irrefl value := irrefl_of (less · · = true) (view value)
  trans _ _ _ := trans_of (less · · = true)
  trichotomous _ _ notBefore notAfter := injective (OrderedSet.eq_of_not_less
    (Bool.eq_false_of_not_eq_true notBefore) (Bool.eq_false_of_not_eq_true notAfter))

/-- `char_traits<char>::lt`. -/
def byteLess (left right : UInt8) : Bool :=
  decide (left.toNat < right.toNat)

instance : IsStrictTotalOrder UInt8 fun left right => byteLess left right = true where
  irrefl byte less := absurd (of_decide_eq_true less) (Nat.lt_irrefl byte.toNat)
  trans _ _ _ before after :=
    decide_eq_true (Nat.lt_trans (of_decide_eq_true before) (of_decide_eq_true after))
  trichotomous _ _ notBefore notAfter := UInt8.toNat_inj.mp (Nat.le_antisymm
    (Nat.not_lt.mp fun less => notAfter (decide_eq_true less))
    (Nat.not_lt.mp fun less => notBefore (decide_eq_true less)))

/-- `std::string`. -/
def string : Ordered where
  Value := List UInt8
  less := listLess byteLess
  strict := inferInstance

def vector (element : Ordered) : Ordered where
  Value := List element.Value
  less := listLess element.less
  strict := inferInstance

/-- `std::set`, with its elements in order. -/
abbrev SetOf (element : Ordered) :=
  { elements : List element.Value // OrderedSet.Sorted element.less elements }

def set (element : Ordered) : Ordered where
  Value := SetOf element
  less left right := listLess element.less left.1 right.1
  strict := strict_of_injective Subtype.val_injective

/-- `std::map<std::string, T>`. -/
abbrev MapOf (value : Ordered) :=
  OrderedMap (fun key : List UInt8 => key.map UInt8.toNat) value.Value

def map (value : Ordered) : Ordered where
  Value := MapOf value
  less left right :=
    @listLess (string.Value × value.Value) (pairLess string.less value.less)
      left.entries right.entries
  strict := @strict_of_injective _ (List (string.Value × value.Value))
    (listLess (pairLess string.less value.less)) inferInstance _
      fun _ _ => OrderedMap.eq_of_entries

end Ordered

/-! ## One function for every value -/

section

variable {α β γ : Type}

theorem mapM_bind (first : α → Option β) (second : β → Option γ) (values : List α) :
    (values.mapM first).bind (fun nodes => nodes.mapM second) =
      values.mapM fun value => (first value).bind second := by
  induction values with
  | nil => rfl
  | cons head tail induction =>
      simp only [List.mapM_cons, Option.bind_eq_bind, Option.pure_def]
      rw [← induction]
      cases first head with
      | none => rfl
      | some node =>
          simp only [Option.bind_some]
          cases tail.mapM first with
          | none => cases second node <;> rfl
          | some nodes =>
              simp only [Option.bind_some, List.mapM_cons, Option.bind_eq_bind, Option.pure_def]

theorem mapM_eq_some_iff {function : α → Option β} {values : List α} {results : List β} :
    values.mapM function = some results ↔
      List.Forall₂ (fun value result => function value = some result) values results := by
  induction values generalizing results with
  | nil =>
      rw [List.mapM_nil, List.forall₂_nil_left_iff]
      exact Option.some_inj.trans eq_comm
  | cons head tail induction =>
      simp only [List.mapM_cons, Option.bind_eq_bind, Option.pure_def, Option.bind_eq_some_iff,
        Option.some_inj, List.forall₂_cons_left_iff]
      constructor
      · intro found
        rcases found with ⟨result, first, rest, later, same⟩
        exact ⟨result, rest, first, induction.mp later, same.symm⟩
      · intro found
        rcases found with ⟨result, rest, first, later, same⟩
        exact ⟨result, first, rest, induction.mpr later, same.symm⟩

theorem mapM_self_iff {function : α → Option α} {values : List α} :
    values.mapM function = some values ↔ ∀ value ∈ values, function value = some value := by
  rw [mapM_eq_some_iff, List.forall₂_same]

theorem exists_of_mem_mapM {function : α → Option β} {values : List α} {results : List β}
    (found : values.mapM function = some results) {result : β} (member : result ∈ results) :
    ∃ value ∈ values, function value = some result := by
  have related := mapM_eq_some_iff.mp found
  induction related with
  | nil => cases member
  | cons first rest induction =>
      rcases List.mem_cons.mp member with same | member
      · exact ⟨_, List.mem_cons_self, same ▸ first⟩
      · rcases induction (mapM_eq_some_iff.mpr rest) member with ⟨value, inside, found⟩
        exact ⟨value, List.mem_cons_of_mem _ inside, found⟩

end

end FiberNet
