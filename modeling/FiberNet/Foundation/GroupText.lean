import Mathlib.Data.List.Basic
import Mathlib.Data.Option.Basic

/-! # Texts of groups with a gap

A text of groups between separators, where two separators may stand for as many zero groups as
are missing. A group is a word without separators that has a value.
-/

namespace FiberNet

namespace GroupText

variable {α : Type u} {β : Type v} (sep : α)

/-- The groups between separators. -/
def join : List (List α) → List α
  | [] => []
  | group :: groups => group ++ groups.flatMap (sep :: ·)

/-- What separators can stand between. -/
def Word (group : List α) : Prop := group ≠ [] ∧ sep ∉ group

/-- All groups, or fewer on the two sides of a gap. -/
def Valid (Group : List α → Prop) (count : Nat) (text : List α) : Prop :=
  (∃ groups, groups.length = count ∧ (∀ group ∈ groups, Group group) ∧ text = join sep groups) ∨
    ∃ before behind, before.length + behind.length < count ∧
      (∀ group ∈ before ++ behind, Group group) ∧
      text = join sep before ++ sep :: sep :: join sep behind

variable {sep}

theorem Word.cons {group : List α} (word : Word sep group) :
    ∃ first rest, group = first :: rest ∧ first ≠ sep ∧ sep ∉ rest := by
  cases group with
  | nil => exact absurd rfl word.1
  | cons first rest =>
      have apart := word.2
      rw [List.mem_cons, not_or] at apart
      exact ⟨first, rest, rfl, fun same => apart.1 same.symm, apart.2⟩

theorem join_eq_intercalate (groups : List (List α)) :
    join sep groups = [sep].intercalate groups := by
  induction groups with
  | nil => rfl
  | cons group groups induction =>
      cases groups with
      | nil => rw [join, List.flatMap_nil, List.append_nil, List.intercalate_singleton]
      | cons next groups =>
          rw [List.intercalate_cons_cons, ← induction, join, join, List.flatMap_cons]
          simp

theorem join_ne_nil {group : List α} (word : Word sep group) (groups : List (List α)) :
    join sep (group :: groups) ≠ [] := by
  rw [join]
  intro empty
  exact word.1 (List.append_eq_nil_iff.mp empty).1

theorem mem_join {element : α} {groups : List (List α)} (member : element ∈ join sep groups) :
    element = sep ∨ ∃ group ∈ groups, element ∈ group := by
  cases groups with
  | nil => cases member
  | cons first groups =>
      rcases List.mem_append.mp member with inside | behind
      · exact .inr ⟨first, List.mem_cons_self, inside⟩
      · rcases List.mem_flatMap.mp behind with ⟨group, listed, inside⟩
        rcases List.mem_cons.mp inside with same | inside
        · exact .inl same
        · exact .inr ⟨group, List.mem_cons_of_mem first listed, inside⟩

variable [DecidableEq α] (sep)

/-- The two sides of the first two separators in a row. -/
def cut : List α → Option (List α × List α)
  | first :: second :: rest =>
      if first = sep ∧ second = sep then some ([], rest)
      else (cut (second :: rest)).map fun sides => (first :: sides.1, sides.2)
  | _ => none

/-- The values of the groups of a text without a gap. -/
def parseGroups (value : List α → Option β) (text : List α) : Option (List β) :=
  if text = [] then some [] else (text.splitOn sep).mapM value

/-- The values of a text of `count` groups. -/
def parse (value : List α → Option β) (count : Nat) (zero : β) (text : List α) :
    Option (List β) :=
  match cut sep text with
  | none => do
      let values ← parseGroups sep value text
      if values.length = count then return values else none
  | some (before, behind) => do
      let first ← parseGroups sep value before
      let last ← parseGroups sep value behind
      if first.length + last.length < count then
        return first ++ List.replicate (count - first.length - last.length) zero ++ last
      else none

variable {sep}

theorem cut_cons {first : α} (other : first ≠ sep) (text : List α) :
    cut sep (first :: text) = (cut sep text).map fun sides => (first :: sides.1, sides.2) := by
  cases text with
  | nil => rfl
  | cons second rest => rw [cut, if_neg fun both => other both.1]

theorem cut_append {group : List α} (word : sep ∉ group) (text : List α) :
    cut sep (group ++ text) = (cut sep text).map fun sides => (group ++ sides.1, sides.2) := by
  induction group with
  | nil => simp
  | cons first rest induction =>
      rw [List.mem_cons, not_or] at word
      rw [List.cons_append, cut_cons (fun same => word.1 same.symm), induction word.2,
        Option.map_map]
      rfl

theorem cut_sep_append {group : List α} (word : Word sep group) (text : List α) :
    cut sep (sep :: group ++ text) =
      (cut sep text).map fun sides => (sep :: group ++ sides.1, sides.2) := by
  rcases word.cons with ⟨first, rest, rfl, other, _⟩
  have inner := cut_append word.2 text
  rw [List.cons_append, List.cons_append, cut, if_neg fun both => other both.2,
    ← List.cons_append, inner, Option.map_map]
  rfl

theorem cut_flatMap {groups : List (List α)} (words : ∀ group ∈ groups, Word sep group)
    (text : List α) :
    cut sep (groups.flatMap (sep :: ·) ++ text) =
      (cut sep text).map fun sides => (groups.flatMap (sep :: ·) ++ sides.1, sides.2) := by
  induction groups with
  | nil => simp
  | cons group groups induction =>
      have rest := induction fun other member => words other (List.mem_cons_of_mem group member)
      rw [List.flatMap_cons, List.append_assoc,
        cut_sep_append (words group List.mem_cons_self), rest, Option.map_map]
      simp [Function.comp_def]

theorem length_le_count_join (groups : List (List α)) :
    groups.length ≤ (join sep groups).count sep + 1 := by
  have later (groups : List (List α)) :
      groups.length ≤ (groups.flatMap (sep :: ·)).count sep := by
    induction groups with
    | nil => exact Nat.zero_le _
    | cons group groups induction =>
        rw [List.flatMap_cons, List.count_append, List.count_cons_self, List.length_cons]
        omega
  cases groups with
  | nil => exact Nat.zero_le _
  | cons group groups =>
      have rest := later groups
      rw [join, List.count_append, List.length_cons]
      omega

/-- The first gap is the one behind the groups. -/
theorem cut_join {groups : List (List α)} (words : ∀ group ∈ groups, Word sep group)
    (text : List α) :
    cut sep (join sep groups ++ text) =
      (cut sep text).map fun sides => (join sep groups ++ sides.1, sides.2) := by
  cases groups with
  | nil => simp [join]
  | cons group groups =>
      have rest := cut_flatMap (fun other member => words other (List.mem_cons_of_mem group member))
        text
      rw [join, List.append_assoc, cut_append (words group List.mem_cons_self).2, rest,
        Option.map_map]
      simp [Function.comp_def]

section

variable {value : List α → Option β} {count : Nat} {zero : β}

theorem parseGroups_join {groups : List (List α)} (words : ∀ group ∈ groups, Word sep group) :
    parseGroups sep value (join sep groups) = groups.mapM value := by
  cases groups with
  | nil => rfl
  | cons group groups =>
      rw [parseGroups, if_neg (join_ne_nil (words group List.mem_cons_self) groups),
        join_eq_intercalate,
        List.splitOn_intercalate sep (fun other member => (words other member).2)
          (List.cons_ne_nil group groups)]

/-- A text of all groups. -/
theorem parse_join {groups : List (List α)} {values : List β}
    (words : ∀ group ∈ groups, Word sep group) (valued : groups.mapM value = some values)
    (complete : values.length = count) :
    parse sep value count zero (join sep groups) = some values := by
  have whole := cut_join words []
  rw [List.append_nil] at whole
  rw [parse, whole]
  simp [cut, parseGroups_join words, valued, complete]

/-- A text with a gap. -/
theorem parse_gap {before behind : List (List α)} {first last : List β}
    (wordsBefore : ∀ group ∈ before, Word sep group)
    (wordsBehind : ∀ group ∈ behind, Word sep group)
    (valuedBefore : before.mapM value = some first) (valuedBehind : behind.mapM value = some last)
    (missing : first.length + last.length < count) :
    parse sep value count zero (join sep before ++ sep :: sep :: join sep behind) =
      some (first ++ List.replicate (count - first.length - last.length) zero ++ last) := by
  have gap := cut_join wordsBefore (sep :: sep :: join sep behind)
  rw [parse, gap, cut, if_pos ⟨rfl, rfl⟩]
  simp [parseGroups_join wordsBefore, parseGroups_join wordsBehind, valuedBefore, valuedBehind,
    missing]

end

end GroupText

end FiberNet
