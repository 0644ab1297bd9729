import FiberNet.Config.LexicalCast
import FiberNet.Foundation.Ordered
import FiberNet.Log.Define

/-! # Containers as texts

The conversions of the containers go through YAML. They are applied to each other as the types
are, so that a variable may hold vectors of maps of sets.
-/

namespace FiberNet

def Ordered.integral (type : Config.Integral) : Ordered where
  Value := type.Value
  less left right := decide (left.1 < right.1)
  strict := {
    irrefl := fun value less => absurd (of_decide_eq_true less) (Int.lt_irrefl value.1)
    trans := fun _ _ _ before after =>
      decide_eq_true (Int.lt_trans (of_decide_eq_true before) (of_decide_eq_true after))
    trichotomous := fun _ _ notBefore notAfter => Subtype.ext (Int.le_antisymm
      (Int.not_lt.mp fun less => notAfter (decide_eq_true less))
      (Int.not_lt.mp fun less => notBefore (decide_eq_true less))) }

namespace Config

open Log (YamlLibrary)

/-! ## The conversions -/

/-- `Lexical_Cast` to and from a type, which throws where a text is no YAML. -/
structure Cast (T : Type) where
  toText : T → Option (List UInt8)
  ofText : List UInt8 → Option T

def Items.ofList : List Yaml → Items
  | [] => .nil
  | head :: tail => .cons head (ofList tail)

def Entries.toList : Entries → List (List UInt8 × Yaml)
  | .nil => []
  | .cons key value tail => (key, value) :: tail.toList

namespace Cast

def string : Cast Ordered.string.Value where
  toText value := some value
  ofText text := some text

def integral (type : Integral) : Cast (Ordered.integral type).Value where
  toText value := some (type.toText value)
  ofText text := some (type.ofText text)

variable (yaml : YamlLibrary (List UInt8)) {T : Type} (cast : Cast T)

/-- `YAML::Load(Lexical_Cast<F, std::string>()(val))`. -/
def node (value : T) : Option Yaml :=
  (cast.toText value).bind yaml.load

/-- `ss << node` and `Lexical_Cast<std::string, T>()(ss.str())`. -/
def read (node : Yaml) : Option T :=
  cast.ofText (yaml.dump node)

/-- The loop over `node[i]`. -/
def readAll (v : List UInt8) : Option (List T) := do
  let node ← yaml.load v
  (Log.children yaml (some node)).mapM (cast.read yaml)

/-- A sequence of the values in order. -/
def writeAll (values : List T) : Option (List UInt8) := do
  let nodes ← values.mapM (cast.node yaml)
  some (yaml.dump (.sequence (Items.ofList nodes)))

def vector {element : Ordered} (cast : Cast element.Value) :
    Cast (Ordered.vector element).Value where
  toText := cast.writeAll yaml
  ofText := cast.readAll yaml

/-- `s.insert(..)` of each. -/
def insertAll {element : Ordered} (values : List element.Value) : element.SetOf :=
  values.foldl (fun set value =>
    ⟨OrderedSet.insert element.less value set.1, OrderedSet.insert_sorted set.2⟩) ⟨[], .nil⟩

def set {element : Ordered} (cast : Cast element.Value) : Cast (Ordered.set element).Value where
  toText values := cast.writeAll yaml values.1
  ofText v := (cast.readAll yaml v).map insertAll

/-- `mp.insert(..)`, which keeps the value of a key that is there. -/
def insertEntry {value : Ordered} (mp : value.MapOf) (entry : List UInt8 × value.Value) :
    value.MapOf :=
  match mp.find entry.1 with
  | some _ => mp
  | none => mp.set entry.1 entry.2

/-- The entries that are inserted. A sequence has no keys, asking for one throws. -/
def readEntries (v : List UInt8) : Option (List (List UInt8 × T)) := do
  let node ← yaml.load v
  match node with
  | .mapping entries =>
      entries.toList.mapM fun entry => (cast.read yaml entry.2).map fun value => (entry.1, value)
  | .sequence .nil | .null | .scalar _ => some []
  | .sequence (.cons _ _) => none

/-- `node[val.first] = ..` for each, in the order of the keys. -/
def writeEntries (values : List (List UInt8 × T)) : Option (List UInt8) := do
  let nodes ← values.mapM fun entry => (cast.node yaml entry.2).map fun node => (entry.1, node)
  some (yaml.dump (.mapping (Entries.ofList nodes)))

def map {value : Ordered} (cast : Cast value.Value) : Cast (Ordered.map value).Value where
  toText values := cast.writeEntries yaml values.entries
  ofText v := (cast.readEntries yaml v).map fun entries =>
    entries.foldl insertEntry (∅ : value.MapOf)

end Cast

/-- The types of variables. The integers of 8 bits, which a stream prints as characters, are
left out. -/
inductive Shape
  | integral (type : Integral) (number : ¬type.IsCharacter)
  | string
  | vector (element : Shape)
  | set (element : Shape)
  | map (value : Shape)

namespace Shape

def order : Shape → Ordered
  | integral type _ => .integral type
  | string => .string
  | vector element => .vector element.order
  | set element => .set element.order
  | map value => .map value.order

def cast (yaml : YamlLibrary (List UInt8)) : (shape : Shape) → Cast shape.order.Value
  | integral type _ => .integral type
  | string => .string
  | vector element => .vector yaml (element.cast yaml)
  | set element => .set yaml (element.cast yaml)
  | map value => .map yaml (value.cast yaml)

end Shape

/-! ## What is read back -/

/-- What a value has become when it was written as a part of a container. -/
def Cast.reread (yaml : YamlLibrary (List UInt8)) {T : Type} (cast : Cast T) (value : T) :
    Option T :=
  (cast.node yaml value).bind (cast.read yaml)

namespace Shape

/-- A value that is printed and read comes back. -/
def RoundTrips (yaml : YamlLibrary (List UInt8)) (shape : Shape) (value : shape.order.Value) :
    Prop :=
  ((shape.cast yaml).toText value).bind (shape.cast yaml).ofText = some value

/-- Every number is below 2^63 and every string is a YAML text in the form of the emitter. -/
def Survives (yaml : YamlLibrary (List UInt8)) : (shape : Shape) → shape.order.Value → Prop
  | integral _ _, value => value.1 < 2 ^ 63
  | string, value => ∃ node, yaml.load value = some node ∧ yaml.dump node = value
  | vector element, (values : List element.order.Value) =>
      ∀ value ∈ values, element.Survives yaml value
  | set element, values => ∀ value ∈ values.1, element.Survives yaml value
  | map value, values => ∀ entry ∈ OrderedMap.entries values, value.Survives yaml entry.2

end Shape

/-- What is written of a tree is loaded as that tree. -/
def Reloads (yaml : YamlLibrary (List UInt8)) (node : Yaml) : Prop :=
  yaml.load (yaml.dump node) = some node

namespace Cast

variable (yaml : YamlLibrary (List UInt8)) {T : Type} (cast : Cast T)

/-- The sequence that is written of these values. -/
def KeepsSequence (values : List T) : Prop :=
  ∀ nodes, values.mapM (cast.node yaml) = some nodes →
    Reloads yaml (.sequence (Items.ofList nodes))

/-- The mapping that is written of these entries. -/
def KeepsMapping (values : List (List UInt8 × T)) : Prop :=
  ∀ nodes, (values.mapM fun entry => (cast.node yaml entry.2).map fun node => (entry.1, node)) =
    some nodes → Reloads yaml (.mapping (Entries.ofList nodes))

end Cast

/-- What is asked of the library, for one value: its numbers are plain scalars, and the trees
that its strings are loaded as and its containers are written from are loaded again. For a set
the elements it is read back with are values at hand, too. -/
def Shape.Kept (yaml : YamlLibrary (List UInt8)) : (shape : Shape) → shape.order.Value → Prop
  | integral type _, value =>
      yaml.load (type.toText value) = some (.scalar (type.toText value)) ∧
        yaml.dump (.scalar (type.toText value)) = type.toText value
  | string, (value : List UInt8) => ∀ node, yaml.load value = some node → Reloads yaml node
  | vector element, (values : List element.order.Value) =>
      (element.cast yaml).KeepsSequence yaml values ∧ ∀ value ∈ values, element.Kept yaml value
  | set element, values =>
      (element.cast yaml).KeepsSequence yaml values.1 ∧ ∀ value ∈ values.1,
        element.Kept yaml value ∧
          ∀ next, (element.cast yaml).reread yaml value = some next → element.Kept yaml next
  | map value, values =>
      (value.cast yaml).KeepsMapping yaml (OrderedMap.entries values) ∧
        ∀ entry ∈ OrderedMap.entries values, value.Kept yaml entry.2

theorem toList_items (items : List Yaml) : (Items.ofList items).toList = items := by
  induction items with
  | nil => rfl
  | cons head tail induction => rw [Items.ofList, Items.toList, induction]

theorem toList_entries (entries : List (List UInt8 × Yaml)) :
    (Entries.ofList entries).toList = entries := by
  induction entries with
  | nil => rfl
  | cons head tail induction => rw [Entries.ofList, Entries.toList, induction]

namespace Cast

variable {yaml : YamlLibrary (List UInt8)} {T : Type} {cast : Cast T}

theorem writeAll_bind {values : List T} (keeps : cast.KeepsSequence yaml values) :
    (cast.writeAll yaml values).bind (cast.readAll yaml) =
        values.mapM (cast.reread yaml) ∧
      ∀ text, cast.writeAll yaml values = some text →
        ∃ node, yaml.load text = some node ∧ yaml.dump node = text := by
  have parts : values.mapM (cast.reread yaml) =
      (values.mapM (cast.node yaml)).bind fun nodes => nodes.mapM (cast.read yaml) :=
    (mapM_bind _ _ values).symm
  rw [parts]
  cases found : values.mapM (cast.node yaml) with
  | none =>
      rw [writeAll, found]
      refine ⟨rfl, ?_⟩
      intro text written
      cases written
  | some nodes =>
      have loaded : yaml.load (yaml.dump (.sequence (Items.ofList nodes))) = _ := keeps nodes found
      rw [writeAll, found]
      constructor
      · change cast.readAll yaml (yaml.dump _) = nodes.mapM _
        rw [readAll, loaded]
        change (Items.ofList nodes).toList.mapM _ = _
        rw [toList_items]
      · intro text written
        cases written
        exact ⟨_, loaded, rfl⟩

theorem writeEntries_bind {values : List (List UInt8 × T)}
    (keeps : cast.KeepsMapping yaml values) :
    (cast.writeEntries yaml values).bind (cast.readEntries yaml) =
        values.mapM (fun entry => (cast.reread yaml entry.2).map fun value => (entry.1, value)) ∧
      ∀ text, cast.writeEntries yaml values = some text →
        ∃ node, yaml.load text = some node ∧ yaml.dump node = text := by
  have parts : values.mapM (fun entry => (cast.reread yaml entry.2).map
      fun value => (entry.1, value)) =
      (values.mapM fun entry => (cast.node yaml entry.2).map fun node => (entry.1, node)).bind
        fun nodes => nodes.mapM fun entry =>
          (cast.read yaml entry.2).map fun value => (entry.1, value) := by
    rw [mapM_bind]
    congr 1
    funext entry
    rw [reread]
    cases cast.node yaml entry.2 <;> rfl
  rw [parts]
  cases found : values.mapM fun entry =>
      (cast.node yaml entry.2).map fun node => (entry.1, node) with
  | none =>
      rw [writeEntries, found]
      refine ⟨rfl, ?_⟩
      intro text written
      cases written
  | some nodes =>
      have loaded : yaml.load (yaml.dump (.mapping (Entries.ofList nodes))) = _ :=
        keeps nodes found
      rw [writeEntries, found]
      constructor
      · change cast.readEntries yaml (yaml.dump _) = nodes.mapM _
        rw [readEntries, loaded]
        change (Entries.ofList nodes).toList.mapM _ = _
        rw [toList_entries]
      · intro text written
        cases written
        exact ⟨_, loaded, rfl⟩

/-! ### Sets and maps -/

theorem mem_foldl_insert {element : Ordered} {value : element.Value} (values : List element.Value) :
    ∀ set : element.SetOf, value ∈ (values.foldl (fun set value =>
      (⟨OrderedSet.insert element.less value set.1, OrderedSet.insert_sorted set.2⟩ :
        element.SetOf)) set).1 ↔ value ∈ set.1 ∨ value ∈ values := by
  induction values with
  | nil => simp
  | cons head tail induction =>
      intro set
      rw [List.foldl_cons, induction, OrderedSet.mem_insert, List.mem_cons]
      tauto

theorem mem_insertAll {element : Ordered} {value : element.Value} {values : List element.Value} :
    value ∈ (insertAll values).1 ↔ value ∈ values := by
  rw [insertAll, mem_foldl_insert]
  exact or_iff_right List.not_mem_nil

/-- The elements of a set are a set again. -/
theorem insertAll_elements {element : Ordered} (set : element.SetOf) : insertAll set.1 = set :=
  Subtype.ext (OrderedSet.eq_of_mem_iff (insertAll set.1).2 set.2 fun _ => mem_insertAll)

theorem foldl_insertEntry {value : Ordered} (entries : List (List UInt8 × value.Value)) :
    ∀ mp : value.MapOf, (mp.entries ++ entries).Pairwise (fun earlier later =>
        earlier.1.map UInt8.toNat < later.1.map UInt8.toNat) →
      (entries.foldl insertEntry mp).entries = mp.entries ++ entries := by
  induction entries with
  | nil => exact fun mp _ => (List.append_nil _).symm
  | cons head tail induction =>
      intro mp sorted
      have above : ∀ entry ∈ mp.entries, entry.1.map UInt8.toNat < head.1.map UInt8.toNat :=
        fun entry member => (List.pairwise_append.mp sorted).2.2 entry member head
          List.mem_cons_self
      have absent : mp.find head.1 = none :=
        OrderedMap.find_of_absent fun entry member => ne_of_lt (above entry member)
      have inserted : (insertEntry mp head).entries = mp.entries ++ [head] := by
        rw [insertEntry, absent]
        exact OrderedMap.assign_of_above above
      rw [List.foldl_cons, induction, inserted, List.append_assoc]
      · rfl
      · rw [inserted, List.append_assoc]
        exact sorted

/-- Entries in the order of their keys are a map. -/
theorem entries_foldl {value : Ordered} {entries : List (List UInt8 × value.Value)}
    (sorted : entries.Pairwise fun earlier later =>
      earlier.1.map UInt8.toNat < later.1.map UInt8.toNat) :
    (entries.foldl insertEntry (∅ : value.MapOf)).entries = entries :=
  foldl_insertEntry entries ∅ sorted

/-! ### One container -/

/-- A text that the library writes again as it is, is read as itself. -/
theorem reread_of_stays {value : T} (stays : ∀ text, cast.toText value = some text →
    ∃ node, yaml.load text = some node ∧ yaml.dump node = text) :
    cast.reread yaml value = (cast.toText value).bind cast.ofText := by
  rw [reread, node]
  cases written : cast.toText value with
  | none => rfl
  | some text =>
      rcases stays text written with ⟨node, loaded, dumped⟩
      rw [Option.bind_some, Option.bind_some, loaded, Option.bind_some, read, dumped]

/-- Reading twice is reading once, as far as the library keeps what has been read. -/
def Settles (yaml : YamlLibrary (List UInt8)) (cast : Cast T) (kept : T → Prop) : Prop :=
  ∀ {value next}, kept value → cast.reread yaml value = some next → kept next →
    cast.reread yaml next = some next

section

variable {element : Ordered} {cast : Cast element.Value} {kept : element.Value → Prop}

theorem vector_reads {values : List element.Value} (keeps : cast.KeepsSequence yaml values) :
    ((vector yaml cast).toText values).bind (vector yaml cast).ofText =
        values.mapM (cast.reread yaml) ∧
      (vector yaml cast).reread yaml values = values.mapM (cast.reread yaml) := by
  have parts := cast.writeAll_bind keeps
  exact ⟨parts.1, (reread_of_stays parts.2).trans parts.1⟩

theorem vector_fixed {values : List element.Value} (keeps : cast.KeepsSequence yaml values) :
    (vector yaml cast).reread yaml values = some values ↔
      ∀ value ∈ values, cast.reread yaml value = some value := by
  rw [(vector_reads keeps).2]
  exact mapM_self_iff

theorem vector_settles (settles : Settles yaml cast kept) :
    Settles yaml (vector yaml cast) fun values : List element.Value =>
      cast.KeepsSequence yaml values ∧ ∀ value ∈ values, kept value := by
  intro values next all found again
  rw [(vector_reads all.1).2] at found
  apply (vector_fixed again.1).mpr
  intro value member
  rcases exists_of_mem_mapM found member with ⟨old, inside, became⟩
  exact settles (all.2 old inside) became (again.2 value member)

theorem set_reads {values : element.SetOf} (keeps : cast.KeepsSequence yaml values.1) :
    ((set yaml cast).toText values).bind (set yaml cast).ofText =
        (values.1.mapM (cast.reread yaml)).map insertAll ∧
      (set yaml cast).reread yaml values =
        (values.1.mapM (cast.reread yaml)).map insertAll := by
  have parts := cast.writeAll_bind keeps
  have reads : ((set yaml cast).toText values).bind (set yaml cast).ofText =
      (values.1.mapM (cast.reread yaml)).map insertAll := by
    rw [← parts.1]
    change (cast.writeAll yaml values.1).bind (fun v => (cast.readAll yaml v).map insertAll) = _
    rw [Option.map_bind]
    rfl
  exact ⟨reads, (reread_of_stays parts.2).trans reads⟩

theorem set_stays {values : element.SetOf} (keeps : cast.KeepsSequence yaml values.1)
    (each : ∀ value ∈ values.1, cast.reread yaml value = some value) :
    (set yaml cast).reread yaml values = some values := by
  rw [(set_reads keeps).2, mapM_self_iff.mpr each, Option.map_some, insertAll_elements]

/-- What is asked for the elements of a set and for what they are read as. -/
def KeptSet (yaml : YamlLibrary (List UInt8)) (cast : Cast element.Value)
    (kept : element.Value → Prop) (values : element.SetOf) : Prop :=
  cast.KeepsSequence yaml values.1 ∧ ∀ value ∈ values.1,
    kept value ∧ ∀ next, cast.reread yaml value = some next → kept next

/-- What has been read into a set stays as it is. -/
theorem set_read (settles : Settles yaml cast kept) {values next : element.SetOf}
    (all : KeptSet yaml cast kept values)
    (found : (set yaml cast).reread yaml values = some next) :
    ∀ value ∈ next.1, cast.reread yaml value = some value := by
  rw [(set_reads all.1).2] at found
  rcases Option.map_eq_some_iff.mp found with ⟨results, became, same⟩
  intro value member
  rw [← same, mem_insertAll] at member
  rcases exists_of_mem_mapM became member with ⟨old, inside, became⟩
  rcases all.2 old inside with ⟨before, behind⟩
  exact settles before became (behind value became)

theorem set_fixed (settles : Settles yaml cast kept) {values : element.SetOf}
    (all : KeptSet yaml cast kept values) :
    (set yaml cast).reread yaml values = some values ↔
      ∀ value ∈ values.1, cast.reread yaml value = some value := by
  constructor
  · exact set_read settles all
  · exact set_stays all.1

theorem set_settles (settles : Settles yaml cast kept) :
    Settles yaml (set yaml cast) (KeptSet yaml cast kept) := by
  intro values next all found again
  exact set_stays again.1 (set_read settles all found)

theorem map_reads {values : element.MapOf} (keeps : cast.KeepsMapping yaml values.entries) :
    ((map yaml cast).toText values).bind (map yaml cast).ofText =
        (values.entries.mapM fun entry => (cast.reread yaml entry.2).map
          fun value => (entry.1, value)).map (fun entries => entries.foldl insertEntry ∅) ∧
      (map yaml cast).reread yaml values =
        (values.entries.mapM fun entry => (cast.reread yaml entry.2).map
          fun value => (entry.1, value)).map fun entries => entries.foldl insertEntry ∅ := by
  have parts := cast.writeEntries_bind keeps
  have reads : ((map yaml cast).toText values).bind (map yaml cast).ofText =
      (values.entries.mapM fun entry => (cast.reread yaml entry.2).map
        fun value => (entry.1, value)).map fun entries => entries.foldl insertEntry ∅ := by
    rw [← parts.1, Option.map_bind]
    rfl
  exact ⟨reads, (reread_of_stays parts.2).trans reads⟩

theorem keys_eq {T : Type} {holds : T → T → Prop} {entries results : List (List UInt8 × T)}
    (related : List.Forall₂ (fun entry result => entry.1 = result.1 ∧ holds entry.2 result.2)
      entries results) : entries.map Prod.fst = results.map Prod.fst := by
  induction related with
  | nil => rfl
  | cons first _ induction => rw [List.map_cons, List.map_cons, first.1, induction]

theorem mapM_entries_iff {T : Type} {function : T → Option T}
    {entries results : List (List UInt8 × T)} :
    entries.mapM (fun entry => (function entry.2).map fun value => (entry.1, value)) =
        some results ↔
      List.Forall₂ (fun entry result => entry.1 = result.1 ∧ function entry.2 = some result.2)
        entries results := by
  have same : (fun (entry result : List UInt8 × T) =>
      ((function entry.2).map fun value => (entry.1, value)) = some result) =
        fun entry result => entry.1 = result.1 ∧ function entry.2 = some result.2 := by
    funext entry result
    rw [Option.map_eq_some_iff]
    apply propext
    constructor
    · intro found
      rcases found with ⟨value, became, rfl⟩
      exact ⟨rfl, became⟩
    · intro found
      exact ⟨result.2, found.2, Prod.ext found.1 rfl⟩
  rw [mapM_eq_some_iff, same]

/-- A map comes back with its keys, and the values are what each has become. -/
theorem map_read {values next : element.MapOf}
    (keeps : cast.KeepsMapping yaml values.entries) :
    (map yaml cast).reread yaml values = some next ↔
      List.Forall₂ (fun entry result => entry.1 = result.1 ∧
        cast.reread yaml entry.2 = some result.2) values.entries next.entries := by
  rw [(map_reads keeps).2, ← mapM_entries_iff]
  refine Option.map_eq_some_iff.trans ?_
  constructor
  · intro found
    rcases found with ⟨results, became, rfl⟩
    have sorted : results.Pairwise fun earlier later =>
        earlier.1.map UInt8.toNat < later.1.map UInt8.toNat := by
      have ordered : (values.entries.map Prod.fst).Pairwise fun earlier later =>
          earlier.map UInt8.toNat < later.map UInt8.toNat := List.pairwise_map.mpr values.sorted
      rw [@keys_eq _ (fun old new => cast.reread yaml old = some new) _ _
        (mapM_entries_iff.mp became)] at ordered
      exact (List.pairwise_map (f := Prod.fst)).mp ordered
    rw [entries_foldl sorted]
    exact became
  · intro found
    exact ⟨next.entries, found, OrderedMap.eq_of_entries (entries_foldl next.sorted)⟩

theorem map_fixed {values : element.MapOf} (keeps : cast.KeepsMapping yaml values.entries) :
    (map yaml cast).reread yaml values = some values ↔
      ∀ entry ∈ values.entries, cast.reread yaml entry.2 = some entry.2 := by
  rw [map_read keeps, List.forall₂_same]
  exact forall₂_congr fun _ _ => and_iff_right rfl

theorem map_settles (settles : Settles yaml cast kept) :
    Settles yaml (map yaml cast) fun values : element.MapOf =>
      cast.KeepsMapping yaml values.entries ∧ ∀ entry ∈ values.entries, kept entry.2 := by
  intro values next all found again
  have related := mapM_entries_iff.mpr ((map_read all.1).mp found)
  apply (map_fixed again.1).mpr
  intro entry member
  rcases exists_of_mem_mapM related member with ⟨old, inside, made⟩
  rcases Option.map_eq_some_iff.mp made with ⟨value, became, rfl⟩
  exact settles (all.2 old inside) became (again.2 _ member)

end

/-! ### Numbers and strings -/

section

variable {type : Integral}

/-- The number is a plain scalar. -/
def Plain (yaml : YamlLibrary (List UInt8)) (type : Integral) (value : type.Value) : Prop :=
  yaml.load (type.toText value) = some (.scalar (type.toText value)) ∧
    yaml.dump (.scalar (type.toText value)) = type.toText value

theorem reread_integral {value : type.Value} (plain : Plain yaml type value) :
    (integral type).reread yaml value = some (type.ofText (type.toText value)) := by
  change (yaml.load (type.toText value)).bind (fun node => some (type.ofText (yaml.dump node))) = _
  rw [plain.1, Option.bind_some, plain.2]

theorem integral_fixed (number : ¬type.IsCharacter) {value : type.Value}
    (plain : Plain yaml type value) :
    (integral type).reread yaml value = some value ↔ value.1 < 2 ^ 63 := by
  rw [reread_integral plain, ← Integral.roundTrips_number number value]
  exact Option.some_inj

/-- What is read is below 2^63. -/
theorem ofText_toText_lt (number : ¬type.IsCharacter) (value : type.Value) :
    (type.ofText (type.toText value)).1 < 2 ^ 63 := by
  by_cases small : value.1 < 2 ^ 63
  · have same : type.ofText (type.toText value) = value :=
      (Integral.roundTrips_number number value).mpr small
    rw [same]
    exact small
  · have limits := type.bounds
    have high := value.2.2
    have clamped : Http.strtol 10 (type.toText value) = 2 ^ 63 - 1 := by
      rw [Integral.toText_of_not_isCharacter number, ← List.append_nil (Integral.integerText _),
        Integral.strtol_integerText value.1 rfl, if_neg (by omega)]
      omega
    have within : type.Within (2 ^ 63 - 1) := ⟨by omega, by omega⟩
    have read : (type.ofText (type.toText value)).1 = 2 ^ 63 - 1 := by
      change type.wrap _ = _
      rw [clamped, Integral.wrap_of_within within]
    omega

theorem integral_settles (number : ¬type.IsCharacter) :
    Settles yaml (integral type) (Plain yaml type) := by
  intro value next plain found again
  apply (integral_fixed number again).mpr
  cases (reread_integral plain).symm.trans found
  exact ofText_toText_lt number value

end

theorem string_fixed (value : List UInt8) :
    string.reread yaml value = some value ↔
      ∃ node, yaml.load value = some node ∧ yaml.dump node = value := by
  change (yaml.load value).bind (fun node => some (yaml.dump node)) = some value ↔ _
  rw [Option.bind_eq_some_iff]
  simp only [Option.some_inj]

theorem string_settles : Settles yaml string fun value : List UInt8 =>
    ∀ node, yaml.load value = some node → Reloads yaml node := by
  intro value next kept found _
  apply (string_fixed next).mpr
  change (yaml.load value).bind (fun node => some (yaml.dump node)) = some next at found
  rcases Option.bind_eq_some_iff.mp found with ⟨node, loaded, same⟩
  cases same
  exact ⟨node, kept node loaded, rfl⟩

end Cast

/-! ### Every type -/

namespace Shape

variable {yaml : YamlLibrary (List UInt8)}

theorem settles (shape : Shape) :
    Cast.Settles yaml (shape.cast yaml) (shape.Kept yaml) := by
  induction shape with
  | integral type number => exact Cast.integral_settles number
  | string => exact Cast.string_settles
  | vector element induction => exact Cast.vector_settles induction
  | set element induction => exact Cast.set_settles induction
  | map value induction => exact Cast.map_settles induction

/-- Exactly what survives stays as it is within a container. -/
theorem reread_iff (shape : Shape) :
    ∀ {value : shape.order.Value}, shape.Kept yaml value →
      ((shape.cast yaml).reread yaml value = some value ↔ shape.Survives yaml value) := by
  induction shape with
  | integral type number => exact Cast.integral_fixed number
  | string => exact fun _ => Cast.string_fixed _
  | vector element induction =>
      intro values all
      refine (Cast.vector_fixed all.1).trans ?_
      exact forall₂_congr fun value member => induction (all.2 value member)
  | set element induction =>
      intro values all
      refine (Cast.set_fixed element.settles all).trans ?_
      exact forall₂_congr fun value member => induction (all.2 value member).1
  | map value induction =>
      intro values all
      refine (Cast.map_fixed all.1).trans ?_
      exact forall₂_congr fun entry member => induction (all.2 entry member)

/-- However the containers are nested, a value comes back exactly if each number in it is below
2^63 and each string in it is a text that the library leaves as it is. -/
theorem containers_roundTrip_iff (shape : Shape) {value : shape.order.Value}
    (kept : shape.Kept yaml value) :
    shape.RoundTrips yaml value ↔ shape = .string ∨ shape.Survives yaml value := by
  rw [← reread_iff shape kept]
  cases shape with
  | integral type number =>
      have reads := Cast.reread_integral kept
      exact (Eq.congr_left reads.symm).trans (or_iff_right fun same => by cases same).symm
  | string => exact iff_of_true rfl (.inl rfl)
  | vector element =>
      have reads := Cast.vector_reads kept.1
      exact (Eq.congr_left (reads.1.trans reads.2.symm)).trans
        (or_iff_right fun same => by cases same).symm
  | set element =>
      have reads := Cast.set_reads kept.1
      exact (Eq.congr_left (reads.1.trans reads.2.symm)).trans
        (or_iff_right fun same => by cases same).symm
  | map element =>
      have reads := Cast.map_reads kept.1
      exact (Eq.congr_left (reads.1.trans reads.2.symm)).trans
        (or_iff_right fun same => by cases same).symm

/-- A library that knows four trees. -/
def library : YamlLibrary (List UInt8) where
  dump
    | .scalar text => text
    | .sequence (.cons (.scalar first) (.cons (.scalar second) .nil)) =>
        Http.text "- " ++ first ++ Http.text "\n- " ++ second
    | .mapping (.cons key (.sequence (.cons (.scalar first) (.cons (.scalar second) .nil))) .nil) =>
        key ++ Http.text ":\n  - " ++ first ++ Http.text "\n  - " ++ second
    | _ => []
  load text :=
    let ports := .sequence (.ofList [.scalar (Http.text "80"), .scalar (Http.text "443")])
    if text = Http.text "80" ∨ text = Http.text "443" then some (.scalar text)
    else if text = Http.text "- 80\n- 443" then some ports
    else if text = Http.text "http:\n  - 80\n  - 443" then
      some (.mapping (.ofList [(Http.text "http", ports)]))
    else none
  structured _ := none
  numbered _ _ := .null

/-- `std::map<std::string, std::vector<int>>`. -/
def services : Shape := map (vector (.integral (.signed .w32) not_false))

/-- The ports of `http`. -/
def http : services.order.Value :=
  (∅ : (Ordered.vector (.integral (.signed .w32))).MapOf).set (Http.text "http")
    [⟨80, by decide, by decide⟩, ⟨443, by decide, by decide⟩]

theorem kept_http : services.Kept library http := by
  refine ⟨?_, ?_⟩
  · rintro nodes ⟨⟩
    rfl
  · intro entry member
    cases List.mem_singleton.mp member
    refine ⟨?_, ?_⟩
    · rintro nodes ⟨⟩
      rfl
    · intro value member
      rcases List.mem_pair.mp member with rfl | rfl
      · exact ⟨rfl, rfl⟩
      · exact ⟨rfl, rfl⟩

/-- They come back. -/
theorem containers_roundTrip_iff_http : services.RoundTrips library http := by
  apply (containers_roundTrip_iff services kept_http).mpr
  right
  intro entry _ value _
  have narrow : (Integral.signed .w32).highest < 2 ^ 63 := by decide
  exact Int.lt_of_le_of_lt value.2.2 narrow

end Shape

end Config

end FiberNet
