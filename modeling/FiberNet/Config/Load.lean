import FiberNet.Foundation.GroupText
import FiberNet.Http.Message

/-! # Loading a configuration

The variables of a configuration are registered under their names. A YAML tree is
listed first, with the path of every node, and then passed to them.
-/

namespace FiberNet

namespace Config

/-! ## Trees -/

mutual
inductive Yaml
  | null
  | scalar (text : List UInt8)
  | sequence (items : Items)
  | mapping (entries : Entries)

inductive Items
  | nil
  | cons (head : Yaml) (tail : Items)

/-- A key is given by its `Scalar()`, which is empty for a key that is no scalar. -/
inductive Entries
  | nil
  | cons (key : List UInt8) (value : Yaml) (tail : Entries)
end

/-- The characters of names. -/
def Legal (byte : UInt8) : Prop :=
  (97 ≤ byte.toNat ∧ byte.toNat ≤ 122) ∨ byte = 46 ∨ byte = 95 ∨
    (48 ≤ byte.toNat ∧ byte.toNat ≤ 57)

instance (byte : UInt8) : Decidable (Legal byte) := inferInstanceAs (Decidable (_ ∨ _))

/-- `find_first_not_of` finds nothing. -/
def LegalName (name : List UInt8) : Prop := ∀ byte ∈ name, Legal byte

instance (name : List UInt8) : Decidable (LegalName name) :=
  @List.decidableBAll UInt8 Legal _ name

/-- `std::transform` with `tolower`. -/
def toLowerName (name : List UInt8) : List UInt8 :=
  name.map fun byte => UInt8.ofNat (Http.toLower byte)

/-! ## The source -/

/-- The path of a value under a key. -/
def childPath (path key : List UInt8) : List UInt8 :=
  if path.isEmpty then key else path ++ [46] ++ key

mutual
def listAllItem (path : List UInt8) (node : Yaml) (out : List (List UInt8 × Yaml)) :
    Bool × List (List UInt8 × Yaml) :=
  let out := if path.isEmpty then out else out ++ [(path, node)]
  match node with
  | .mapping entries => listEntries path entries out
  | .null | .scalar _ | .sequence _ => (true, out)

/-- The loop over the entries of a mapping. -/
def listEntries (path : List UInt8) :
    Entries → List (List UInt8 × Yaml) → Bool × List (List UInt8 × Yaml)
  | .nil, out => (true, out)
  | .cons key value tail, out =>
      if LegalName key then
        match listAllItem (childPath path key) value out with
        | (true, out) => listEntries path tail out
        | (false, out) => (false, out)
      else (false, out)
end

section

variable {Variable : Type u} {World : Type v} (emit : Yaml → List UInt8)
  (lookUpBase : List UInt8 → Option Variable)
  (fromStr : Variable → List UInt8 → World → World)

/-- What a variable is set from. -/
def nodeText : Yaml → List UInt8
  | .scalar text => text
  | node => emit node

/-- `loadFromYamlNode`, where `emit` is the serialiser and `fromStr` may do anything. -/
def loadFromYamlNode (node : Yaml) (world : World) : Bool × World :=
  match listAllItem [] node [] with
  | (false, _) => (false, world)
  | (true, out) =>
      (true, out.foldl (fun world val =>
        match lookUpBase (toLowerName val.1) with
        | some var => fromStr var (nodeText emit val.2) world
        | none => world) world)

end

/-! ## Nodes and their paths -/

mutual
/-- The nodes that mappings lead to with the keys on the way, parents first and otherwise in
the order of the document. -/
def nodes : Yaml → List (List (List UInt8) × Yaml)
  | .mapping entries => ([], .mapping entries) :: entryNodes entries
  | node => [([], node)]

def entryNodes : Entries → List (List (List UInt8) × Yaml)
  | .nil => []
  | .cons key value tail =>
      (nodes value).map (fun found => (key :: found.1, found.2)) ++ entryNodes tail
end

/-- The keys joined by dots, without the empty ones in front. -/
def dottedPath (keys : List (List UInt8)) : List UInt8 :=
  GroupText.join 46 (keys.dropWhile (·.isEmpty))

/-- All keys on the way to a node are legal. -/
def LegalKeys (node : Yaml) : Prop :=
  ∀ found ∈ nodes node, ∀ key ∈ found.1, LegalName key

/-! ## What is listed -/

/-- The nodes under a path, with their paths, but those whose path is empty. -/
def listed (path : List UInt8) (found : List (List (List UInt8) × Yaml)) :
    List (List UInt8 × Yaml) :=
  (found.map fun entry => (entry.1.foldl childPath path, entry.2)).filter fun entry =>
    !entry.1.isEmpty

theorem listed_append (path : List UInt8) (first last : List (List (List UInt8) × Yaml)) :
    listed path (first ++ last) = listed path first ++ listed path last := by
  rw [listed, List.map_append, List.filter_append]
  rfl

/-- A key on the way belongs to the path. -/
theorem listed_cons (path key : List UInt8) (found : List (List (List UInt8) × Yaml)) :
    listed path (found.map fun entry => (key :: entry.1, entry.2)) =
      listed (childPath path key) found := by
  rw [listed, List.map_map]
  rfl

theorem listed_here (path : List UInt8) (node : Yaml) (out : List (List UInt8 × Yaml)) :
    (if path.isEmpty then out else out ++ [(path, node)]) = out ++ listed path [([], node)] := by
  cases path with
  | nil => simp [listed]
  | cons first rest => simp [listed]

def LegalEntries (entries : Entries) : Prop :=
  ∀ found ∈ entryNodes entries, ∀ key ∈ found.1, LegalName key

theorem legalKeys_mapping (entries : Entries) :
    LegalKeys (.mapping entries) ↔ LegalEntries entries := by
  rw [LegalKeys, nodes, List.forall_mem_cons]
  simp [LegalEntries]

/-- A node is found on the empty way. -/
theorem root_mem_nodes (node : Yaml) : ([], node) ∈ nodes node := by
  cases node with
  | mapping entries =>
      rw [nodes]
      exact List.mem_cons_self
  | null => exact List.mem_cons_self
  | scalar text => exact List.mem_cons_self
  | sequence items => exact List.mem_cons_self

theorem legalEntries_cons (key : List UInt8) (value : Yaml) (tail : Entries) :
    LegalEntries (.cons key value tail) ↔ LegalName key ∧ LegalKeys value ∧ LegalEntries tail := by
  have here : (∀ found ∈ (nodes value).map fun found => (key :: found.1, found.2),
      ∀ other ∈ found.1, LegalName other) ↔ LegalName key ∧ LegalKeys value := by
    rw [List.forall_mem_map]
    constructor
    · intro all
      refine ⟨all _ (root_mem_nodes value) key List.mem_cons_self, ?_⟩
      intro found member other inside
      exact all found member other (List.mem_cons_of_mem key inside)
    · intro both found member other inside
      rcases List.mem_cons.mp inside with same | inside
      · rw [same]
        exact both.1
      · exact both.2 found member other inside
  rw [LegalEntries, entryNodes, List.forall_mem_append, here, and_assoc]
  rfl

mutual
/-- Legal trees are listed as a whole. -/
theorem listAllItem_legal (path : List UInt8) : ∀ (node : Yaml) (out : List (List UInt8 × Yaml)),
    LegalKeys node → listAllItem path node out = (true, out ++ listed path (nodes node))
  | .null, out, _ => by
      rw [listAllItem, listed_here]
      rfl
  | .scalar text, out, _ => by
      rw [listAllItem, listed_here]
      rfl
  | .sequence items, out, _ => by
      rw [listAllItem, listed_here]
      rfl
  | .mapping entries, out, legal => by
      rw [listAllItem, listed_here,
        listEntries_legal path entries _ ((legalKeys_mapping entries).mp legal), List.append_assoc,
        ← listed_append]
      rfl

theorem listEntries_legal (path : List UInt8) : ∀ (entries : Entries)
    (out : List (List UInt8 × Yaml)), LegalEntries entries →
      listEntries path entries out = (true, out ++ listed path (entryNodes entries))
  | .nil, out, _ => by
      rw [listEntries, entryNodes]
      simp [listed]
  | .cons key value tail, out, legal => by
      rcases (legalEntries_cons key value tail).mp legal with ⟨keyLegal, valueLegal, tailLegal⟩
      rw [listEntries, if_pos keyLegal, listAllItem_legal _ value out valueLegal]
      simp only
      rw [listEntries_legal path tail _ tailLegal, entryNodes, listed_append, listed_cons,
        List.append_assoc]
end

mutual
/-- The listing of another tree is given up. -/
theorem listAllItem_illegal (path : List UInt8) : ∀ (node : Yaml)
    (out : List (List UInt8 × Yaml)), ¬LegalKeys node → (listAllItem path node out).1 = false
  | .null, out, illegal => by simp [LegalKeys, nodes] at illegal
  | .scalar text, out, illegal => by simp [LegalKeys, nodes] at illegal
  | .sequence items, out, illegal => by simp [LegalKeys, nodes] at illegal
  | .mapping entries, out, illegal => by
      rw [listAllItem]
      exact listEntries_illegal path entries _ (mt (legalKeys_mapping entries).mpr illegal)

theorem listEntries_illegal (path : List UInt8) : ∀ (entries : Entries)
    (out : List (List UInt8 × Yaml)), ¬LegalEntries entries →
      (listEntries path entries out).1 = false
  | .nil, out, illegal => by simp [LegalEntries, entryNodes] at illegal
  | .cons key value tail, out, illegal => by
      rw [legalEntries_cons] at illegal
      rw [listEntries]
      split
      · rename_i keyLegal
        by_cases valueLegal : LegalKeys value
        · rw [listAllItem_legal _ value out valueLegal]
          exact listEntries_illegal path tail _ fun tailLegal =>
            illegal ⟨keyLegal, valueLegal, tailLegal⟩
        · have stopped := listAllItem_illegal (childPath path key) value out valueLegal
          cases outcome : listAllItem (childPath path key) value out with
          | mk whole found =>
              rw [outcome] at stopped
              cases stopped
              rfl
      · rfl
end

/-! ## Paths -/

theorem foldl_childPath {path : List UInt8} (nonempty : path ≠ []) (keys : List (List UInt8)) :
    keys.foldl childPath path = path ++ keys.flatMap (46 :: ·) := by
  induction keys generalizing path with
  | nil => simp
  | cons key keys induction =>
      have child : childPath path key = path ++ 46 :: key := by
        rw [childPath, if_neg (by simpa using nonempty), List.append_assoc]
        rfl
      rw [List.foldl_cons, child, induction (by simp), List.flatMap_cons, List.append_assoc]

/-- The paths of the source. -/
theorem foldl_childPath_nil (keys : List (List UInt8)) :
    keys.foldl childPath [] = dottedPath keys := by
  induction keys with
  | nil => rfl
  | cons key keys induction =>
      rw [List.foldl_cons, dottedPath]
      cases key with
      | nil =>
          rw [List.dropWhile_cons_of_pos (by rfl), ← dottedPath, ← induction]
          rfl
      | cons first rest =>
          have child : childPath [] (first :: rest) = first :: rest := rfl
          rw [List.dropWhile_cons_of_neg (by simp), child, GroupText.join,
            foldl_childPath (List.cons_ne_nil first rest)]

theorem toLower_legal {byte : UInt8} (legal : Legal byte) :
    UInt8.ofNat (Http.toLower byte) = byte := by
  have small : ¬((65 ≤ byte.toNat && byte.toNat ≤ 90) = true) := by
    intro upper
    rw [Bool.and_eq_true, decide_eq_true_iff, decide_eq_true_iff] at upper
    rcases legal with letter | dot | line | digit
    · omega
    · rw [dot] at upper
      exact absurd upper (by decide)
    · rw [line] at upper
      exact absurd upper (by decide)
    · omega
  rw [Http.toLower, if_neg small]
  exact UInt8.ofNat_toNat

/-- A legal name has no upper case. -/
theorem toLowerName_legal {name : List UInt8} (legal : LegalName name) :
    toLowerName name = name := by
  have same := List.map_congr_left fun byte member => toLower_legal (legal byte member)
  rw [toLowerName, same]
  exact List.map_id name

theorem legalName_dottedPath {keys : List (List UInt8)} (legal : ∀ key ∈ keys, LegalName key) :
    LegalName (dottedPath keys) := by
  intro byte member
  rcases GroupText.mem_join member with same | ⟨key, listed, inside⟩
  · rw [same]
    exact .inr (.inl rfl)
  · exact legal key ((List.dropWhile_sublist _).subset listed) byte inside

/-! ## Loading -/

section

variable {Variable : Type u} {World : Type v} (emit : Yaml → List UInt8)
  (lookUpBase : List UInt8 → Option Variable)
  (fromStr : Variable → List UInt8 → World → World)

/-- A tree with an illegal key changes nothing. For any other one the variables are set from the
nodes whose path is their name, in the order of the nodes. -/
def LoadsByPath (pathOf : List (List UInt8) → Option (List UInt8)) (node : Yaml)
    (world : World) : Prop :=
  (¬LegalKeys node → loadFromYamlNode emit lookUpBase fromStr node world = (false, world)) ∧
  (LegalKeys node → loadFromYamlNode emit lookUpBase fromStr node world =
    (true, (nodes node).foldl (fun world found =>
      match (pathOf found.1).bind lookUpBase with
      | some var => fromStr var (nodeText emit found.2) world
      | none => world) world))

/-- The path of a node that has one. -/
def nodePath (keys : List (List UInt8)) : Option (List UInt8) :=
  if (dottedPath keys).isEmpty then none else some (dottedPath keys)

/-- Loading is all or nothing, by the paths without leading empty keys. -/
theorem loadFromYamlNode_spec (node : Yaml) (world : World) :
    LoadsByPath emit lookUpBase fromStr nodePath node world := by
  constructor
  · intro illegal
    have stopped := listAllItem_illegal [] node [] illegal
    rw [loadFromYamlNode]
    cases outcome : listAllItem [] node [] with
    | mk whole found =>
        rw [outcome] at stopped
        cases stopped
        rfl
  · intro legal
    rw [loadFromYamlNode, listAllItem_legal [] node [] legal]
    simp only [List.nil_append, listed, List.foldl_filter, List.foldl_map, Prod.mk.injEq,
      true_and]
    apply List.foldl_ext
    intro world found member
    rw [foldl_childPath_nil, toLowerName_legal (legalName_dottedPath (legal found member)),
      nodePath]
    cases empty : (dottedPath found.1).isEmpty with
    | true => rfl
    | false => rfl

end

/-- The root has the empty path, and a variable may have the empty name, but the root is not
listed. That does not depend on what leading empty keys give to a path. -/
theorem not_loadsByPath_root :
    ¬LoadsByPath (fun _ => []) (fun name => if name = [] then some () else none)
      (fun _ text world => world ++ [text]) (fun keys => some (GroupText.join 46 keys))
      (.scalar (Http.text "1")) ([] : List (List UInt8)) ∧
    ¬LoadsByPath (fun _ => []) (fun name => if name = [] then some () else none)
      (fun _ text world => world ++ [text]) (fun keys => some (dottedPath keys))
      (.scalar (Http.text "1")) ([] : List (List UInt8)) := by
  have legal : LegalKeys (.scalar (Http.text "1")) := by
    intro found member key inside
    rw [List.mem_singleton.mp member] at inside
    cases inside
  constructor
  · intro loads
    have same := loads.2 legal
    exact absurd (congrArg Prod.snd same) (by decide)
  · intro loads
    have same := loads.2 legal
    exact absurd (congrArg Prod.snd same) (by decide)

/-- A variable is set from the nodes with its name in their order. -/
example : loadFromYamlNode (fun _ => Http.text "?")
    (fun name => if name = Http.text "a.b" then some () else none)
    (fun _ text world => world ++ [text])
    (.mapping (.cons (Http.text "a") (.mapping (.cons (Http.text "b")
      (.scalar (Http.text "1")) .nil)) (.cons (Http.text "a.b") .null .nil))) [] =
    (true, [Http.text "1", Http.text "?"]) := by
  decide

end Config

end FiberNet
