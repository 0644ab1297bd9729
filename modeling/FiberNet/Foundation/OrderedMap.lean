import Mathlib.Order.Basic
import Mathlib.Order.Defs.LinearOrder
import Mathlib.Order.Lattice

/-! # Ordered maps

`std::map` whose comparator compares the ranks of two keys. Keys of one rank are
equivalent: an assignment finds the entry of an equivalent key and keeps its key.
-/

namespace FiberNet

/-- The entries of a map in iteration order. -/
structure OrderedMap {α : Type u} {γ : Type w} [LinearOrder γ] (rank : α → γ)
    (β : Type v) where
  entries : List (α × β)
  sorted : entries.Pairwise fun earlier later => rank earlier.1 < rank later.1

namespace OrderedMap

variable {α : Type u} {β : Type v} {γ : Type w} [LinearOrder γ] {rank : α → γ}

theorem eq_of_entries {left right : OrderedMap rank β}
    (equal : left.entries = right.entries) : left = right := by
  cases left
  cases right
  cases equal
  rfl

instance [DecidableEq α] [DecidableEq β] : DecidableEq (OrderedMap rank β) :=
  fun left right =>
    decidable_of_iff (left.entries = right.entries)
      ⟨eq_of_entries, fun equal => equal ▸ rfl⟩

instance : EmptyCollection (OrderedMap rank β) := ⟨⟨[], .nil⟩⟩

@[simp] theorem entries_empty : (∅ : OrderedMap rank β).entries = [] := rfl

/-- The entries behind `map[key] = value`. -/
def assign (rank : α → γ) (key : α) (value : β) : List (α × β) → List (α × β)
  | [] => [(key, value)]
  | entry :: entries =>
      if rank entry.1 < rank key then entry :: assign rank key value entries
      else if rank key < rank entry.1 then (key, value) :: entry :: entries
      else (entry.1, value) :: entries

theorem rank_of_mem_assign {key : α} {value : β} {entry : α × β} :
    ∀ {entries : List (α × β)}, entry ∈ assign rank key value entries →
      rank entry.1 = rank key ∨ entry ∈ entries
  | [], member => by
      rw [List.mem_singleton.mp member]
      exact .inl rfl
  | head :: entries, member => by
      unfold assign at member
      split at member
      · rcases List.mem_cons.mp member with equal | member
        · exact .inr (equal ▸ List.mem_cons_self)
        · exact (rank_of_mem_assign member).imp_right (List.mem_cons_of_mem head)
      · rename_i notBelow
        split at member
        · rcases List.mem_cons.mp member with equal | member
          · exact .inl (equal ▸ rfl)
          · exact .inr member
        · rename_i notAbove
          rcases List.mem_cons.mp member with equal | member
          · subst equal
            exact .inl (le_antisymm (not_lt.mp notAbove) (not_lt.mp notBelow))
          · exact .inr (List.mem_cons_of_mem head member)

theorem sorted_assign (key : α) (value : β) : ∀ {entries : List (α × β)},
    entries.Pairwise (fun earlier later => rank earlier.1 < rank later.1) →
      (assign rank key value entries).Pairwise
        fun earlier later => rank earlier.1 < rank later.1
  | [], _ => List.pairwise_singleton _ _
  | head :: entries, sorted => by
      rcases List.pairwise_cons.mp sorted with ⟨first, rest⟩
      unfold assign
      split
      · rename_i below
        refine List.pairwise_cons.mpr ⟨fun entry member => ?_, sorted_assign key value rest⟩
        rcases rank_of_mem_assign member with equal | member
        · exact equal ▸ below
        · exact first entry member
      · split
        · rename_i above
          refine List.pairwise_cons.mpr ⟨fun entry member => ?_, sorted⟩
          rcases List.mem_cons.mp member with equal | member
          · exact equal ▸ above
          · exact above.trans (first entry member)
        · exact List.pairwise_cons.mpr ⟨first, rest⟩

/-- `map[key] = value`. -/
def set (map : OrderedMap rank β) (key : α) (value : β) : OrderedMap rank β :=
  ⟨assign rank key value map.entries, sorted_assign key value map.sorted⟩

/-- `map::find`. -/
def find (map : OrderedMap rank β) (key : α) : Option β :=
  (map.entries.find? fun entry => decide (rank entry.1 = rank key)).map (·.2)

/-- `map::erase`. -/
def erase (map : OrderedMap rank β) (key : α) : OrderedMap rank β :=
  ⟨map.entries.filter fun entry => decide (rank entry.1 ≠ rank key),
    map.sorted.sublist List.filter_sublist⟩

/-- A key above all others goes to the end. -/
theorem assign_of_above {key : α} {value : β} : ∀ {entries : List (α × β)},
    (∀ entry ∈ entries, rank entry.1 < rank key) →
      assign rank key value entries = entries ++ [(key, value)]
  | [], _ => rfl
  | head :: entries, above => by
      rw [assign, if_pos (above head List.mem_cons_self), List.cons_append,
        assign_of_above fun entry member => above entry (List.mem_cons_of_mem head member)]

theorem foldl_assign : ∀ {entries : List (α × β)} {before : List (α × β)},
    (before ++ entries).Pairwise (fun earlier later => rank earlier.1 < rank later.1) →
      entries.foldl (fun entries entry => assign rank entry.1 entry.2 entries) before =
        before ++ entries
  | [], before, _ => (List.append_nil before).symm
  | head :: entries, before, sorted => by
      have above : ∀ entry ∈ before, rank entry.1 < rank head.1 := fun entry member =>
        (List.pairwise_append.mp sorted).2.2 entry member head List.mem_cons_self
      rw [List.foldl_cons, assign_of_above above, foldl_assign (by simpa using sorted)]
      simp

theorem entries_foldl_set (entries : List (α × β)) : ∀ map : OrderedMap rank β,
    (entries.foldl (fun map entry => map.set entry.1 entry.2) map).entries =
      entries.foldl (fun entries entry => assign rank entry.1 entry.2 entries) map.entries := by
  induction entries with
  | nil => intro map; rfl
  | cons entry entries induction => intro map; exact induction (map.set entry.1 entry.2)

/-- Assigning the entries of a map in their order builds the map again. -/
theorem foldl_set_empty (map : OrderedMap rank β) :
    map.entries.foldl (fun built entry => built.set entry.1 entry.2) ∅ = map := by
  apply eq_of_entries
  rw [entries_foldl_set, entries_empty, foldl_assign (by simpa using map.sorted)]
  rfl

theorem filter_assign {key : α} {value : β} : ∀ {entries : List (α × β)},
    (assign rank key value entries).filter (fun entry => decide (rank entry.1 ≠ rank key)) =
      entries.filter fun entry => decide (rank entry.1 ≠ rank key)
  | [] => by simp [assign]
  | head :: entries => by
      unfold assign
      split
      · rw [List.filter_cons, List.filter_cons, filter_assign]
      · split
        · simp [List.filter_cons]
        · rename_i notBelow notAbove
          have equal : rank head.1 = rank key :=
            le_antisymm (not_lt.mp notAbove) (not_lt.mp notBelow)
          simp [equal]

/-- Erasing a key takes back its assignment. -/
theorem erase_set (map : OrderedMap rank β) (key : α) (value : β) :
    (map.set key value).erase key = map.erase key :=
  eq_of_entries filter_assign

theorem erase_of_absent {map : OrderedMap rank β} {key : α}
    (absent : ∀ entry ∈ map.entries, rank entry.1 ≠ rank key) : map.erase key = map :=
  eq_of_entries (List.filter_eq_self.mpr fun entry member => by simp [absent entry member])

/-- Equivalent keys are erased alike. -/
theorem erase_congr {map : OrderedMap rank β} {key other : α} (same : rank key = rank other) :
    map.erase key = map.erase other := by
  apply eq_of_entries
  show map.entries.filter _ = map.entries.filter _
  rw [same]

/-- Equivalent keys are found alike. -/
theorem find_congr {map : OrderedMap rank β} {key other : α} (same : rank key = rank other) :
    map.find key = map.find other := by
  rw [find, find, same]

theorem find_of_absent {map : OrderedMap rank β} {key : α}
    (absent : ∀ entry ∈ map.entries, rank entry.1 ≠ rank key) : map.find key = none := by
  rw [find, List.find?_eq_none.mpr fun entry member => by simp [absent entry member]]
  rfl

theorem find?_assign_same {key : α} {value : β} : ∀ {entries : List (α × β)},
    ((assign rank key value entries).find? fun entry => decide (rank entry.1 = rank key)).map
      (·.2) = some value
  | [] => by simp [assign]
  | head :: entries => by
      unfold assign
      split
      · rename_i below
        rw [List.find?_cons_of_neg (by simp [below.ne])]
        exact find?_assign_same
      · split
        · simp
        · rename_i notBelow notAbove
          have equal : rank head.1 = rank key :=
            le_antisymm (not_lt.mp notAbove) (not_lt.mp notBelow)
          simp [equal]

theorem find_set_same (map : OrderedMap rank β) (key : α) (value : β) :
    (map.set key value).find key = some value :=
  find?_assign_same

theorem find?_assign_other {key other : α} {value : β} (different : rank key ≠ rank other) :
    ∀ {entries : List (α × β)},
      ((assign rank key value entries).find? fun entry => decide (rank entry.1 = rank other)).map
        (·.2) = (entries.find? fun entry => decide (rank entry.1 = rank other)).map (·.2)
  | [] => by simp [assign, different]
  | head :: entries => by
      unfold assign
      split
      · by_cases equal : rank head.1 = rank other
        · simp [equal]
        · rw [List.find?_cons_of_neg (by simpa using equal),
            List.find?_cons_of_neg (by simpa using equal), find?_assign_other different]
      · split
        · rw [List.find?_cons_of_neg (by simpa using different)]
        · rename_i notBelow notAbove
          have equal : rank head.1 = rank key :=
            le_antisymm (not_lt.mp notAbove) (not_lt.mp notBelow)
          have unequal : rank head.1 ≠ rank other := equal ▸ different
          rw [List.find?_cons_of_neg (by simpa using unequal),
            List.find?_cons_of_neg (by simpa using unequal)]

theorem find_set_other (map : OrderedMap rank β) {key other : α} (value : β)
    (different : rank key ≠ rank other) :
    (map.set key value).find other = map.find other :=
  find?_assign_other different

/-! ## Maps of the same keys -/

def keys (map : OrderedMap rank β) : List α :=
  map.entries.map Prod.fst

theorem find?_of_mem {entry : α × β} {entries : List (α × β)}
    (sorted : entries.Pairwise fun earlier later => rank earlier.1 < rank later.1)
    (member : entry ∈ entries) :
    (entries.find? fun other => decide (rank other.1 = rank entry.1)) = some entry := by
  induction entries with
  | nil => cases member
  | cons head entries induction =>
      rcases List.pairwise_cons.mp sorted with ⟨first, rest⟩
      rcases List.mem_cons.mp member with rfl | later
      · exact List.find?_cons_of_pos (by simp)
      · have below := first entry later
        rw [List.find?_cons_of_neg (by simpa using below.ne)]
        exact induction rest later

theorem find_of_mem {map : OrderedMap rank β} {entry : α × β} (member : entry ∈ map.entries) :
    map.find entry.1 = some entry.2 := by
  rw [find, find?_of_mem map.sorted member]
  rfl

/-- Maps of the same keys are equal if the same values are found in them. -/
theorem eq_of_find {left right : OrderedMap rank β} (keys : left.keys = right.keys)
    (found : ∀ key, left.find key = right.find key) : left = right := by
  apply eq_of_entries
  have lengths : left.entries.length = right.entries.length := by
    have same := congrArg List.length keys
    rwa [OrderedMap.keys, OrderedMap.keys, List.length_map, List.length_map] at same
  apply List.ext_getElem lengths
  intro index inLeft inRight
  have key : (left.entries[index]).1 = (right.entries[index]).1 := by
    have same := congrArg (fun keys => keys[index]?) keys
    simpa [OrderedMap.keys, inLeft, inRight] using same
  have value := found (left.entries[index]).1
  rw [find_of_mem (List.getElem_mem inLeft), key, find_of_mem (List.getElem_mem inRight)] at value
  exact Prod.ext key (Option.some.inj value)

theorem keys_assign {key : α} {value other : β} {left right : List (α × β)}
    (keys : left.map Prod.fst = right.map Prod.fst) :
    (assign rank key value left).map Prod.fst = (assign rank key other right).map Prod.fst := by
  induction left generalizing right with
  | nil =>
      cases right with
      | nil => rfl
      | cons head right => cases keys
  | cons head left induction =>
      cases right with
      | nil => cases keys
      | cons head' right =>
          rw [List.map_cons, List.map_cons, List.cons.injEq] at keys
          unfold assign
          rw [← keys.1]
          split
          · rw [List.map_cons, List.map_cons, keys.1, induction keys.2]
          · split
            · simp only [List.map_cons, keys.1, keys.2]
            · simp only [List.map_cons, keys.2]

theorem assign_of_found {key : α} {entry : α × β} {entries : List (α × β)}
    (sorted : entries.Pairwise fun earlier later => rank earlier.1 < rank later.1)
    (found : (entries.find? fun other => decide (rank other.1 = rank key)) = some entry) :
    assign rank key entry.2 entries = entries := by
  induction entries with
  | nil => cases found
  | cons head entries induction =>
      rcases List.pairwise_cons.mp sorted with ⟨first, rest⟩
      have equivalent : rank entry.1 = rank key := by simpa using List.find?_some found
      unfold assign
      split
      · rename_i below
        rw [List.find?_cons_of_neg (by simpa using below.ne)] at found
        rw [induction rest found]
      · rename_i notBelow
        split
        · rename_i above
          rcases List.mem_cons.mp (List.mem_of_find?_eq_some found) with rfl | later
          · exact absurd equivalent above.ne'
          · exact absurd equivalent (above.trans (first entry later)).ne'
        · rename_i notAbove
          have here := le_antisymm (not_lt.mp notAbove) (not_lt.mp notBelow)
          rw [List.find?_cons_of_pos (by simpa using here)] at found
          cases found
          rfl

/-- An assignment of the value that is there already changes nothing. -/
theorem set_of_find {map : OrderedMap rank β} {key : α} {value : β}
    (found : map.find key = some value) : map.set key value = map := by
  rcases Option.map_eq_some_iff.mp found with ⟨entry, first, rfl⟩
  exact eq_of_entries (assign_of_found map.sorted first)

/-! ## Assignments one after the other -/

def setAll (map : OrderedMap rank β) (assignments : List (α × β)) : OrderedMap rank β :=
  assignments.foldl (fun map entry => map.set entry.1 entry.2) map

@[simp] theorem setAll_nil (map : OrderedMap rank β) : map.setAll [] = map := rfl

@[simp] theorem setAll_cons (map : OrderedMap rank β) (entry : α × β)
    (assignments : List (α × β)) :
    map.setAll (entry :: assignments) = (map.set entry.1 entry.2).setAll assignments := rfl

theorem setAll_append (map : OrderedMap rank β) (first second : List (α × β)) :
    map.setAll (first ++ second) = (map.setAll first).setAll second :=
  List.foldl_append

/-- Which keys there are does not depend on the values assigned. -/
theorem keys_setAll {first second : List (α × β)} {left right : OrderedMap rank β}
    (assigned : first.map Prod.fst = second.map Prod.fst) (keys : left.keys = right.keys) :
    (left.setAll first).keys = (right.setAll second).keys := by
  induction first generalizing second left right with
  | nil =>
      cases second with
      | nil => exact keys
      | cons entry second => cases assigned
  | cons entry first induction =>
      cases second with
      | nil => cases assigned
      | cons other second =>
          rw [List.map_cons, List.map_cons, List.cons.injEq] at assigned
          rw [setAll_cons, setAll_cons]
          apply induction assigned.2
          rw [← assigned.1]
          exact keys_assign keys

theorem find_setAll_of_absent {assignments : List (α × β)} {key : α}
    (absent : ∀ entry ∈ assignments, rank entry.1 ≠ rank key) (map : OrderedMap rank β) :
    (map.setAll assignments).find key = map.find key := by
  induction assignments generalizing map with
  | nil => rfl
  | cons entry assignments induction =>
      rw [setAll_cons, induction fun later member => absent later (List.mem_cons_of_mem _ member),
        find_set_other map entry.2 (absent entry List.mem_cons_self)]

/-- The last assignment to a key counts. -/
theorem find_setAll_of_last {before after : List (α × β)} {entry : α × β} {key : α}
    (same : rank entry.1 = rank key) (last : ∀ later ∈ after, rank later.1 ≠ rank key)
    (map : OrderedMap rank β) :
    (map.setAll (before ++ entry :: after)).find key = some entry.2 := by
  rw [setAll_append, setAll_cons, find_setAll_of_absent last, ← find_congr same, find_set_same]

end OrderedMap

end FiberNet
