import Mathlib.Data.List.Sigma

/-! # Edited tables

A table to which keys are added and from which they are removed. What it should hold
is read off its edits: the additions whose key no later edit has, in their order.
-/

namespace FiberNet

inductive TableEdit (Key : Type u) (Value : Type v)
  | add (key : Key) (value : Value)
  | remove (key : Key)
  deriving DecidableEq

namespace TableEdit

variable {Key : Type u} {Value : Type v}

def key : TableEdit Key Value → Key
  | .add key _ => key
  | .remove key => key

/-- What a lookup of its key finds behind an edit. -/
def outcome : TableEdit Key Value → Option Value
  | .add _ value => some value
  | .remove _ => none

/-- The last addition of `key` gave it `value`, and no removal followed. -/
def Stands (edits : List (TableEdit Key Value)) (key : Key) (value : Value) : Prop :=
  ∃ before after,
    edits = before ++ .add key value :: after ∧ ∀ edit ∈ after, edit.key ≠ key

theorem not_stands_nil (key : Key) (value : Value) :
    ¬Stands ([] : List (TableEdit Key Value)) key value := by
  intro stands
  rcases stands with ⟨before, after, split, _⟩
  exact absurd split (by simp)

theorem Stands.of_cons {edit : TableEdit Key Value} {edits : List (TableEdit Key Value)}
    {key : Key} {value : Value} (stands : Stands edits key value) :
    Stands (edit :: edits) key value := by
  rcases stands with ⟨before, after, split, later⟩
  exact ⟨edit :: before, after, by rw [split, List.cons_append], later⟩

/-- A first edit stands if it adds the key and no later one has it. -/
theorem stands_cons_iff {edit : TableEdit Key Value} {edits : List (TableEdit Key Value)}
    {key : Key} {value : Value} :
    Stands (edit :: edits) key value ↔
      (edit = .add key value ∧ ∀ later ∈ edits, later.key ≠ key) ∨ Stands edits key value := by
  constructor
  · intro stands
    rcases stands with ⟨before, after, split, later⟩
    cases before with
    | nil =>
        rcases List.cons.inj split with ⟨same, rest⟩
        exact .inl ⟨same, rest ▸ later⟩
    | cons head before => exact .inr ⟨before, after, (List.cons.inj split).2, later⟩
  · intro either
    cases either with
    | inl first => exact ⟨[], edits, by rw [first.1, List.nil_append], first.2⟩
    | inr stands => exact stands.of_cons

variable [DecidableEq Key]

/-- The additions that stand, in their order. -/
def standing : List (TableEdit Key Value) → List (Σ _ : Key, Value)
  | [] => []
  | .add key value :: edits =>
      if key ∈ edits.map TableEdit.key then standing edits else ⟨key, value⟩ :: standing edits
  | .remove _ :: edits => standing edits

theorem mem_standing_iff {edits : List (TableEdit Key Value)} {key : Key} {value : Value} :
    ⟨key, value⟩ ∈ standing edits ↔ Stands edits key value := by
  induction edits with
  | nil => exact iff_of_false List.not_mem_nil (not_stands_nil key value)
  | cons edit edits induction =>
      rw [stands_cons_iff, ← induction]
      cases edit with
      | remove removed =>
          have different : TableEdit.remove removed ≠ .add key value := nofun
          simp [standing, different]
      | add added given =>
          by_cases later : added ∈ edits.map TableEdit.key
          · have touched : ¬(TableEdit.add added given = .add key value ∧
                ∀ later ∈ edits, later.key ≠ key) := by
              intro first
              cases first.1
              rcases List.mem_map.mp later with ⟨edit, member, same⟩
              exact first.2 edit member same
            rw [standing, if_pos later, or_iff_right touched]
          · rw [standing, if_neg later, List.mem_cons]
            apply or_congr_left
            constructor
            · intro same
              cases same
              exact ⟨rfl, fun edit member same => later (List.mem_map.mpr ⟨edit, member, same⟩)⟩
            · intro first
              cases first.1
              rfl

theorem key_of_mem_standing {edits : List (TableEdit Key Value)} {entry : Σ _ : Key, Value}
    (member : entry ∈ standing edits) : entry.1 ∈ edits.map TableEdit.key := by
  rcases mem_standing_iff.mp member with ⟨before, after, split, _⟩
  rw [split]
  simp [key]

/-- No key stands twice. -/
theorem nodupKeys_standing (edits : List (TableEdit Key Value)) :
    (standing edits).NodupKeys := by
  induction edits with
  | nil => exact List.nodupKeys_nil
  | cons edit edits induction =>
      cases edit with
      | remove _ => exact induction
      | add added given =>
          rw [standing]
          split
          · exact induction
          · rename_i fresh
            apply List.nodupKeys_cons.mpr
            constructor
            · intro member
              rcases List.exists_of_mem_keys member with ⟨value, member⟩
              exact fresh (key_of_mem_standing member)
            · exact induction

theorem dlookup_standing_iff {edits : List (TableEdit Key Value)} {key : Key} {value : Value} :
    (standing edits).dlookup key = some value ↔ Stands edits key value := by
  rw [← mem_standing_iff]
  exact List.mem_dlookup_iff (nodupKeys_standing edits)

/-! ## The table -/

/-- The entry that an edit appends. -/
def appended : TableEdit Key Value → List (Σ _ : Key, Value)
  | .add key value => [⟨key, value⟩]
  | .remove _ => []

/-- An edit of a table that erases the first entry of the key before it appends. -/
def perform (table : List (Σ _ : Key, Value)) (edit : TableEdit Key Value) :
    List (Σ _ : Key, Value) :=
  table.kerase edit.key ++ edit.appended

theorem standing_append (edits : List (TableEdit Key Value)) (edit : TableEdit Key Value) :
    standing (edits ++ [edit]) = perform (standing edits) edit := by
  induction edits with
  | nil => cases edit <;> rfl
  | cons first edits induction =>
      have keys : (edits ++ [edit]).map TableEdit.key = edits.map TableEdit.key ++ [edit.key] :=
        List.map_append
      cases first with
      | remove _ => exact induction
      | add added given =>
          rw [List.cons_append, standing, standing, keys, induction]
          by_cases later : added ∈ edits.map TableEdit.key
          · rw [if_pos (List.mem_append_left _ later), if_pos later]
          · rw [if_neg later]
            have absent : added ∉ (standing edits).keys := by
              intro member
              rcases List.exists_of_mem_keys member with ⟨value, member⟩
              exact later (key_of_mem_standing member)
            by_cases same : added = edit.key
            · rw [if_pos (List.mem_append_right _ (List.mem_singleton.mpr same)), perform, perform,
                List.kerase_cons_eq same.symm, List.kerase_of_notMem_keys (same ▸ absent)]
            · have fresh : added ∉ edits.map TableEdit.key ++ [edit.key] := by
                simp only [List.mem_append, List.mem_singleton, not_or]
                exact ⟨later, same⟩
              rw [if_neg fresh, perform, perform, List.kerase_cons_ne (Ne.symm same),
                List.cons_append]

/-- What a table holds whose entries have distinct keys, behind an edit. -/
theorem dlookup_perform {table : List (Σ _ : Key, Value)} (distinct : table.NodupKeys)
    (edit : TableEdit Key Value) (key : Key) :
    (perform table edit).dlookup key =
      if edit.key = key then edit.outcome else table.dlookup key := by
  rw [perform, List.dlookup_append]
  by_cases same : edit.key = key
  · rw [if_pos same, same, List.dlookup_kerase key distinct, Option.none_or]
    cases edit with
    | add _ _ =>
        cases same
        simp [appended, key, outcome]
    | remove _ => rfl
  · rw [if_neg same, List.dlookup_kerase_ne (Ne.symm same)]
    cases edit with
    | add _ _ =>
        rw [appended, List.dlookup_cons_ne _ _ (Ne.symm same), List.dlookup_nil, Option.or_none]
    | remove _ => rw [appended, List.dlookup_nil, Option.or_none]

end TableEdit

end FiberNet
