import FiberNet.Config.Load
import FiberNet.Foundation.Machine
import Mathlib.Data.List.Sigma

/-! # The registry of variables

The variables are found by their names. A caller that looks a variable up keeps a pointer to
it; pointers are the positions of the objects that have been made.
-/

namespace FiberNet

namespace Config

/-- A `ConfigVar` of some type. -/
structure Variable (Ty : Type u) (Value : Type v) where
  type : Ty
  varName : List UInt8
  varDesc : List UInt8
  value : Value

structure Registry (Ty : Type u) (Value : Type v) where
  objects : List (Variable Ty Value) := []
  varMap : List (List UInt8 × Nat) := []

/-- What a look-up returns or throws. -/
inductive Found
  | variable (pointer : Nat)
  | null
  | invalidArgument (name : List UInt8)
  deriving DecidableEq

namespace Registry

variable {Ty : Type u} {Value : Type v}

/-- `mp.insert`, which leaves an entry that exists. -/
def insert (map : List (List UInt8 × Nat)) (name : List UInt8) (pointer : Nat) :
    List (List UInt8 × Nat) :=
  if (map.lookup name).isSome then map else map ++ [(name, pointer)]

/-- `std::dynamic_pointer_cast<ConfigVar<T>>`. -/
def castPointer [DecidableEq Ty] (registry : Registry Ty Value) (type : Ty) (pointer : Nat) :
    Found :=
  if (registry.objects[pointer]?).any fun object => decide (object.type = type) then
    .variable pointer
  else .null

/-- `lookUp(varName, varDftVal, varDesc)`. -/
def lookUp [DecidableEq Ty] (registry : Registry Ty Value) (type : Ty) (varName : List UInt8)
    (varDftVal : Value) (varDesc : List UInt8) : Found × Registry Ty Value :=
  match registry.varMap.lookup varName with
  | some pointer => (registry.castPointer type pointer, registry)
  | none =>
      let name := toLowerName varName
      if LegalName name then
        let v := registry.objects.length
        (.variable v,
          { objects := registry.objects ++ [⟨type, name, varDesc, varDftVal⟩]
            varMap := insert registry.varMap name v })
      else (.invalidArgument name, registry)

/-- `lookUp(varName)`. -/
def lookUpTyped [DecidableEq Ty] (registry : Registry Ty Value) (type : Ty)
    (varName : List UInt8) : Found :=
  match registry.varMap.lookup varName with
  | some pointer => registry.castPointer type pointer
  | none => .null

def lookUpBase (registry : Registry Ty Value) (varName : List UInt8) : Option Nat :=
  registry.varMap.lookup varName

section

variable (emit : Yaml → List UInt8) (convert : Ty → Value → List UInt8 → Value)

/-- `fromStr` of the object behind a pointer. What it does to a value depends on the type. -/
def fromStr (pointer : Nat) (text : List UInt8) (objects : List (Variable Ty Value)) :
    List (Variable Ty Value) :=
  objects.modify pointer fun object =>
    { object with value := convert object.type object.value text }

/-- `loadFromYamlNode`. -/
def load (registry : Registry Ty Value) (node : Yaml) : Bool × Registry Ty Value :=
  let (loaded, objects) :=
    loadFromYamlNode emit registry.lookUpBase (fromStr convert) node registry.objects
  (loaded, { registry with objects := objects })

end

end Registry

/-! ## Runs -/

inductive RegistryCall (Ty : Type u) (Value : Type v)
  | lookUp (type : Ty) (varName : List UInt8) (varDftVal : Value) (varDesc : List UInt8)
  | lookUpTyped (type : Ty) (varName : List UInt8)
  | lookUpBase (varName : List UInt8)
  | load (node : Yaml)

/-- A variable that a caller has got from `lookUp` with a default. -/
structure Handle (Ty : Type u) where
  type : Ty
  varName : List UInt8
  pointer : Nat

section

variable {Ty : Type u} {Value : Type v} (emit : Yaml → List UInt8)
  (convert : Ty → Value → List UInt8 → Value)

/-- The registry from its start, with the handles that have been returned. -/
def registryMachine [DecidableEq Ty] :
    Machine (Registry Ty Value × List (Handle Ty)) (RegistryCall Ty Value) where
  initial state := state = ({}, [])
  step state
    | .lookUp type varName varDftVal varDesc =>
        match state.1.lookUp type varName varDftVal varDesc with
        | (.variable pointer, registry) =>
            some (registry, state.2 ++ [⟨type, varName, pointer⟩])
        | (_, registry) => some (registry, state.2)
    | .lookUpTyped _ _ => some state
    | .lookUpBase _ => some state
    | .load node => some ((state.1.load emit convert node).2, state.2)

/-- Every handle is the variable that is registered under its name in lower case. -/
def OneVariable (state : Registry Ty Value × List (Handle Ty)) : Prop :=
  ∀ handle ∈ state.2,
    state.1.lookUpBase (toLowerName handle.varName) = some handle.pointer

/-- The name is spelled in lower case, or new, or illegal. -/
def Spelled (state : Registry Ty Value × List (Handle Ty)) : RegistryCall Ty Value → Prop
  | .lookUp _ varName _ _ =>
      toLowerName varName = varName ∨ state.1.lookUpBase (toLowerName varName) = none ∨
        ¬LegalName (toLowerName varName)
  | .lookUpTyped _ _ | .lookUpBase _ | .load _ => True

/-- What holds in every run: the entries are the names of their objects, in lower case, and handles
point to objects of their type. -/
structure Sound (state : Registry Ty Value × List (Handle Ty)) : Prop where
  entries : ∀ name pointer, state.1.lookUpBase name = some pointer →
    toLowerName name = name ∧
      ∃ object, state.1.objects[pointer]? = some object ∧ object.varName = name
  handles : ∀ handle ∈ state.2,
    ∃ object, state.1.objects[handle.pointer]? = some object ∧ object.type = handle.type

/-! ## What a load does to an object -/

/-- The texts for a name in a tree. -/
def texts (node : Yaml) (name : List UInt8) : List (List UInt8) :=
  ((nodes node).filter fun found => decide (nodePath found.1 = some name)).map fun found =>
    nodeText emit found.2

/-- A load shows in the variable behind a handle. -/
def Shown (registry : Registry Ty Value) (node : Yaml) (handle : Handle Ty) : Prop :=
  ∃ object, registry.objects[handle.pointer]? = some object ∧ object.type = handle.type ∧
    (registry.load emit convert node).2.objects[handle.pointer]? =
      some { object with
        value := (texts emit node (toLowerName handle.varName)).foldl
          (convert object.type) object.value }

variable {emit convert} {state : Registry Ty Value × List (Handle Ty)}

theorem getElem?_fromStr (pointer other : Nat) (text : List UInt8)
    (objects : List (Variable Ty Value)) :
    (Registry.fromStr convert pointer text objects)[other]? =
      (objects[other]?).map fun object =>
        if pointer = other then { object with value := convert object.type object.value text }
        else object := by
  rw [Registry.fromStr, List.getElem?_modify]
  rfl

/-- The objects are set from the nodes that lead to them. -/
theorem getElem?_foldl_fromStr (emit : Yaml → List UInt8)
    (convert : Ty → Value → List UInt8 → Value)
    (target : List (List UInt8) × Yaml → Option Nat) (other : Nat)
    (found : List (List (List UInt8) × Yaml)) (objects : List (Variable Ty Value)) :
    (found.foldl (fun objects entry =>
      match target entry with
      | some pointer => Registry.fromStr convert pointer (nodeText emit entry.2) objects
      | none => objects) objects)[other]? =
      (objects[other]?).map fun object =>
        { object with
          value := ((found.filter fun entry => decide (target entry = some other)).map fun entry =>
            nodeText emit entry.2).foldl (convert object.type) object.value } := by
  induction found generalizing objects with
  | nil => simp
  | cons entry found induction =>
      rw [List.foldl_cons, induction, List.filter_cons]
      cases leads : target entry with
      | none => simp
      | some pointer =>
          simp only [getElem?_fromStr, Option.map_map]
          congr 1
          funext object
          by_cases here : pointer = other
          · simp [here]
          · simp [here]

theorem getElem?_load {node : Yaml} (legal : LegalKeys node) (registry : Registry Ty Value)
    (other : Nat) :
    (registry.load emit convert node).2.objects[other]? =
      (registry.objects[other]?).map fun object =>
        { object with
          value := (((nodes node).filter fun found =>
            decide ((nodePath found.1).bind registry.lookUpBase = some other)).map fun found =>
              nodeText emit found.2).foldl (convert object.type) object.value } := by
  have loaded := (loadFromYamlNode_spec emit registry.lookUpBase (Registry.fromStr convert) node
    registry.objects).2 legal
  rw [Registry.load, loaded]
  simp only
  rw [← getElem?_foldl_fromStr emit convert
    (fun found => (nodePath found.1).bind registry.lookUpBase) other (nodes node) registry.objects]
  congr 1
  apply List.foldl_ext
  intro objects found member
  cases (nodePath found.1).bind registry.lookUpBase with
  | none => rfl
  | some pointer => rfl

/-- A load changes nothing but values. -/
theorem getElem?_load_any (node : Yaml) (registry : Registry Ty Value) (other : Nat) :
    ∃ value : Variable Ty Value → Value,
      (registry.load emit convert node).2.objects[other]? =
        (registry.objects[other]?).map fun object => { object with value := value object } := by
  by_cases legal : LegalKeys node
  · exact ⟨_, getElem?_load legal registry other⟩
  · have refused := (loadFromYamlNode_spec emit registry.lookUpBase (Registry.fromStr convert) node
      registry.objects).1 legal
    apply Exists.intro Variable.value
    rw [Registry.load, refused]
    simp

/-! ## What a look-up does -/

theorem lookup_insert (map : List (List UInt8 × Nat)) (name other : List UInt8) (pointer : Nat) :
    (Registry.insert map name pointer).lookup other =
      (map.lookup other).or (if other = name then some pointer else none) := by
  rw [Registry.insert]
  split
  · rename_i present
    by_cases same : other = name
    · rcases Option.isSome_iff_exists.mp present with ⟨found, known⟩
      rw [same, known, Option.some_or]
    · rw [if_neg same, Option.or_none]
  · rw [List.lookup_append, List.lookup_cons, List.lookup_nil]
    by_cases same : other = name
    · rw [if_pos same, same, beq_self_eq_true]
    · rw [if_neg same, beq_false_of_ne same]

theorem toLower_toLower (byte : UInt8) :
    Http.toLower (UInt8.ofNat (Http.toLower byte)) = Http.toLower byte := by
  by_cases upper : 65 ≤ byte.toNat ∧ byte.toNat ≤ 90
  · have value : Http.toLower byte = byte.toNat + 32 := by
      rw [Http.toLower, if_pos (by simpa using upper)]
    have known : (UInt8.ofNat (byte.toNat + 32)).toNat = byte.toNat + 32 := by
      apply UInt8.toNat_ofNat_of_lt'
      show byte.toNat + 32 < 256
      omega
    rw [value, Http.toLower, known, if_neg]
    simp
    omega
  · have value : Http.toLower byte = byte.toNat := by
      rw [Http.toLower, if_neg (by simpa using upper)]
    rw [value, UInt8.ofNat_toNat, value]

theorem toLowerName_idem (name : List UInt8) :
    toLowerName (toLowerName name) = toLowerName name := by
  rw [toLowerName, toLowerName, List.map_map]
  apply List.map_congr_left
  intro byte member
  exact congrArg UInt8.ofNat (toLower_toLower byte)

/-! ## What holds in every run -/

/-- The registry with one more object. -/
def Registry.make (registry : Registry Ty Value) (type : Ty) (name : List UInt8)
    (varDftVal : Value) (varDesc : List UInt8) : Registry Ty Value where
  objects := registry.objects ++ [⟨type, name, varDesc, varDftVal⟩]
  varMap := Registry.insert registry.varMap name registry.objects.length

theorem Sound.pointer_lt (sound : Sound state) {name : List UInt8} {pointer : Nat}
    (known : state.1.lookUpBase name = some pointer) : pointer < state.1.objects.length := by
  rcases (sound.entries name pointer known).2 with ⟨object, there, named⟩
  exact (List.getElem?_eq_some_iff.mp there).1

theorem Sound.handle_lt (sound : Sound state) {handle : Handle Ty} (member : handle ∈ state.2) :
    handle.pointer < state.1.objects.length := by
  rcases sound.handles handle member with ⟨object, there, typed⟩
  exact (List.getElem?_eq_some_iff.mp there).1

theorem lookUpBase_make (registry : Registry Ty Value) (type : Ty) (name other : List UInt8)
    (varDftVal : Value) (varDesc : List UInt8) :
    (registry.make type name varDftVal varDesc).lookUpBase other =
      (registry.lookUpBase other).or
        (if other = name then some registry.objects.length else none) :=
  lookup_insert registry.varMap name other registry.objects.length

theorem getElem?_make (registry : Registry Ty Value) (type : Ty) (name : List UInt8)
    (varDftVal : Value) (varDesc : List UInt8) {pointer : Nat} {object : Variable Ty Value}
    (there : registry.objects[pointer]? = some object) :
    (registry.make type name varDftVal varDesc).objects[pointer]? = some object := by
  have inside := (List.getElem?_eq_some_iff.mp there).1
  rw [Registry.make, List.getElem?_append_left inside]
  exact there

theorem Sound.make (sound : Sound state) (type : Ty) (varName : List UInt8) (varDftVal : Value)
    (varDesc : List UInt8) :
    Sound (state.1.make type (toLowerName varName) varDftVal varDesc,
      state.2 ++ [⟨type, varName, state.1.objects.length⟩]) := by
  have made : (state.1.make type (toLowerName varName) varDftVal varDesc).objects[
      state.1.objects.length]? = some ⟨type, toLowerName varName, varDesc, varDftVal⟩ :=
    List.getElem?_concat_length
  constructor
  · intro name pointer known
    rw [lookUpBase_make] at known
    rcases Option.or_eq_some_iff.mp known with old | ⟨absent, new⟩
    · rcases sound.entries name pointer old with ⟨lower, object, there, named⟩
      exact ⟨lower, object, getElem?_make _ _ _ _ _ there, named⟩
    · split at new
      · rename_i same
        cases new
        rw [same]
        exact ⟨toLowerName_idem varName, _, made, rfl⟩
      · cases new
  · intro handle member
    rcases List.mem_append.mp member with old | new
    · rcases sound.handles handle old with ⟨object, there, typed⟩
      exact ⟨object, getElem?_make _ _ _ _ _ there, typed⟩
    · rw [List.mem_singleton.mp new]
      exact ⟨_, made, rfl⟩

/-- A new object is the one of its name exactly if the name was not registered. -/
theorem oneVariable_make (sound : Sound state) (type : Ty) (varName : List UInt8)
    (varDftVal : Value) (varDesc : List UInt8) :
    OneVariable (state.1.make type (toLowerName varName) varDftVal varDesc,
      state.2 ++ [⟨type, varName, state.1.objects.length⟩]) ↔
      OneVariable state ∧ state.1.lookUpBase (toLowerName varName) = none := by
  constructor
  · intro one
    constructor
    · intro handle member
      have known := one handle (List.mem_append_left _ member)
      rw [lookUpBase_make] at known
      rcases Option.or_eq_some_iff.mp known with old | ⟨absent, new⟩
      · exact old
      · split at new
        · have inside := sound.handle_lt member
          rw [Option.some.inj new] at inside
          exact absurd inside (Nat.lt_irrefl _)
        · cases new
    · have known := one _ (List.mem_append_right _ List.mem_cons_self)
      rw [lookUpBase_make] at known
      rcases Option.or_eq_some_iff.mp known with old | ⟨absent, new⟩
      · exact absurd (sound.pointer_lt old) (Nat.lt_irrefl _)
      · exact absent
  · intro both handle member
    rw [lookUpBase_make]
    rcases List.mem_append.mp member with old | new
    · rw [both.1 handle old, Option.some_or]
    · rw [List.mem_singleton.mp new, both.2, Option.none_or, if_pos rfl]

/-- Only one name is registered for an object. -/
theorem Sound.bind_lookUpBase (sound : Sound state) {name : List UInt8} {pointer : Nat}
    (known : state.1.lookUpBase name = some pointer) (path : Option (List UInt8)) :
    path.bind state.1.lookUpBase = some pointer ↔ path = some name := by
  constructor
  · intro leads
    rcases Option.bind_eq_some_iff.mp leads with ⟨other, rfl, there⟩
    rcases (sound.entries name pointer known).2 with ⟨object, first, named⟩
    rcases (sound.entries other pointer there).2 with ⟨second, again, called⟩
    rw [first] at again
    cases again
    rw [← named, ← called]
  · intro same
    rw [same]
    exact known

theorem Sound.shown (sound : Sound state) (one : OneVariable state) {node : Yaml}
    (legal : LegalKeys node) {handle : Handle Ty} (member : handle ∈ state.2) :
    Shown emit convert state.1 node handle := by
  rcases sound.handles handle member with ⟨object, there, typed⟩
  refine ⟨object, there, typed, ?_⟩
  rw [getElem?_load legal, there]
  simp only [sound.bind_lookUpBase (one handle member)]
  rfl

/-- A load keeps the names and the types. -/
theorem Sound.load (sound : Sound state) (node : Yaml) :
    Sound ((state.1.load emit convert node).2, state.2) := by
  constructor
  · intro name pointer known
    rcases sound.entries name pointer known with ⟨lower, object, there, named⟩
    rcases getElem?_load_any node state.1 pointer with ⟨value, loaded⟩
    rw [there] at loaded
    exact ⟨lower, _, loaded, named⟩
  · intro handle member
    rcases sound.handles handle member with ⟨object, there, typed⟩
    rcases getElem?_load_any node state.1 handle.pointer with ⟨value, loaded⟩
    rw [there] at loaded
    exact ⟨_, loaded, typed⟩

/-! ## One call -/

variable [DecidableEq Ty]

theorem lookUp_known {registry : Registry Ty Value} {varName : List UInt8} {pointer : Nat}
    (known : registry.lookUpBase varName = some pointer) (type : Ty) (varDftVal : Value)
    (varDesc : List UInt8) :
    registry.lookUp type varName varDftVal varDesc =
      (registry.castPointer type pointer, registry) := by
  rw [Registry.lookUpBase] at known
  rw [Registry.lookUp, known]

theorem lookUp_illegal {registry : Registry Ty Value} {varName : List UInt8}
    (unknown : registry.lookUpBase varName = none) (illegal : ¬LegalName (toLowerName varName))
    (type : Ty) (varDftVal : Value) (varDesc : List UInt8) :
    registry.lookUp type varName varDftVal varDesc =
      (.invalidArgument (toLowerName varName), registry) := by
  rw [Registry.lookUpBase] at unknown
  rw [Registry.lookUp, unknown]
  exact if_neg illegal

theorem lookUp_new {registry : Registry Ty Value} {varName : List UInt8}
    (unknown : registry.lookUpBase varName = none) (legal : LegalName (toLowerName varName))
    (type : Ty) (varDftVal : Value) (varDesc : List UInt8) :
    registry.lookUp type varName varDftVal varDesc =
      (.variable registry.objects.length,
        registry.make type (toLowerName varName) varDftVal varDesc) := by
  rw [Registry.lookUpBase] at unknown
  rw [Registry.lookUp, unknown]
  exact if_pos legal

/-- A look-up that finds a registered name. -/
theorem sound_known (sound : Sound state) {varName : List UInt8} {pointer : Nat}
    (known : state.1.lookUpBase varName = some pointer) {type : Ty}
    (cast : state.1.castPointer type pointer = .variable pointer) :
    Sound (state.1, state.2 ++ [⟨type, varName, pointer⟩]) ∧
      (OneVariable (state.1, state.2 ++ [⟨type, varName, pointer⟩]) ↔ OneVariable state) := by
  have lower := (sound.entries varName pointer known).1
  constructor
  · constructor
    · exact sound.entries
    · intro handle member
      rcases List.mem_append.mp member with old | new
      · exact sound.handles handle old
      · rw [List.mem_singleton.mp new]
        rcases (sound.entries varName pointer known).2 with ⟨object, there, named⟩
        rw [Registry.castPointer, there] at cast
        by_cases typed : object.type = type
        · exact ⟨object, there, typed⟩
        · simp [typed] at cast
  · constructor
    · intro one handle member
      exact one handle (List.mem_append_left _ member)
    · intro one handle member
      rcases List.mem_append.mp member with old | new
      · exact one handle old
      · rw [List.mem_singleton.mp new]
        exact (congrArg state.1.lookUpBase lower).trans known

theorem castPointer_cases (registry : Registry Ty Value) (type : Ty) (pointer : Nat) :
    registry.castPointer type pointer = .variable pointer ∨
      registry.castPointer type pointer = .null := by
  rw [Registry.castPointer]
  split
  · exact .inl rfl
  · exact .inr rfl

/-- What one call keeps. -/
theorem registry_step {call : RegistryCall Ty Value} {next : Registry Ty Value × List (Handle Ty)}
    (sound : Sound state) (taken : (registryMachine emit convert).step state call = some next) :
    Sound next ∧ (OneVariable next ↔ OneVariable state ∧ Spelled state call) := by
  cases call with
  | lookUpTyped type varName =>
      cases taken
      exact ⟨sound, (and_iff_left trivial).symm⟩
  | lookUpBase varName =>
      cases taken
      exact ⟨sound, (and_iff_left trivial).symm⟩
  | load node =>
      cases taken
      exact ⟨sound.load node, (and_iff_left trivial).symm⟩
  | lookUp type varName varDftVal varDesc =>
      simp only [registryMachine] at taken
      cases known : state.1.lookUpBase varName with
      | some pointer =>
          have spelled : Spelled state (.lookUp type varName varDftVal varDesc) :=
            .inl (sound.entries varName pointer known).1
          rw [lookUp_known known] at taken
          rcases castPointer_cases state.1 type pointer with cast | cast
          · rw [cast] at taken
            cases taken
            have kept := sound_known sound known cast
            exact ⟨kept.1, kept.2.trans (and_iff_left spelled).symm⟩
          · rw [cast] at taken
            cases taken
            exact ⟨sound, (and_iff_left spelled).symm⟩
      | none =>
          by_cases legal : LegalName (toLowerName varName)
          · rw [lookUp_new known legal] at taken
            cases taken
            have spelled : Spelled state (.lookUp type varName varDftVal varDesc) ↔
                state.1.lookUpBase (toLowerName varName) = none := by
              constructor
              · intro cases
                rcases cases with lower | absent | illegal
                · rw [lower]
                  exact known
                · exact absent
                · exact absurd legal illegal
              · intro absent
                exact .inr (.inl absent)
            rw [spelled]
            exact ⟨sound.make type varName varDftVal varDesc,
              oneVariable_make sound type varName varDftVal varDesc⟩
          · rw [lookUp_illegal known legal] at taken
            cases taken
            exact ⟨sound, (and_iff_left (.inr (.inr legal))).symm⟩

/-! ## Whole runs -/

theorem Sound.lookUp_again (sound : Sound state) (one : OneVariable state) {handle : Handle Ty}
    (member : handle ∈ state.2) (varDftVal : Value) (varDesc : List UInt8) :
    state.1.lookUp handle.type (toLowerName handle.varName) varDftVal varDesc =
      (.variable handle.pointer, state.1) := by
  rcases sound.handles handle member with ⟨object, there, typed⟩
  rw [lookUp_known (one handle member), Registry.castPointer, there, if_pos (by simp [typed])]

/-- The handles are the registered variables in exactly the runs in which no new spelling of
a registered name is looked up. A name that is found is in lower case. -/
theorem oneVariable_iff (calls : List (RegistryCall Ty Value))
    {final : Registry Ty Value × List (Handle Ty)}
    (executed : (registryMachine emit convert).run ({}, []) calls = some final) :
    (OneVariable final ↔ (registryMachine emit convert).Meets Spelled ({}, []) calls) ∧
    (OneVariable final →
      (∀ first ∈ final.2, ∀ second ∈ final.2,
        toLowerName first.varName = toLowerName second.varName →
          first.pointer = second.pointer) ∧
      ∀ handle ∈ final.2,
        (∀ varDftVal varDesc,
          final.1.lookUp handle.type (toLowerName handle.varName) varDftVal varDesc =
            (.variable handle.pointer, final.1)) ∧
        ∀ node, LegalKeys node → Shown emit convert final.1 node handle) ∧
    ∀ varName pointer, final.1.lookUpBase varName = some pointer →
      final.1.lookUpBase (toLowerName varName) = some pointer := by
  have start : Sound (({}, []) : Registry Ty Value × List (Handle Ty)) := by
    constructor
    · intro name pointer known
      cases known
    · intro handle member
      cases member
  have none : OneVariable (({}, []) : Registry Ty Value × List (Handle Ty)) := by
    intro handle member
    cases member
  rcases Machine.meets_iff registry_step calls start executed with ⟨sound, whole⟩
  refine ⟨whole.trans (and_iff_right none), ?_, ?_⟩
  · intro one
    constructor
    · intro first firstMember second secondMember same
      have known := one first firstMember
      rw [same, one second secondMember] at known
      exact (Option.some.inj known).symm
    · intro handle member
      exact ⟨sound.lookUp_again one member, fun node legal => sound.shown one legal member⟩
  · intro varName pointer known
    rw [(sound.entries varName pointer known).1]
    exact known

end

/-- A name is registered in upper case and looked up in lower case. -/
theorem oneVariable_same :
    ∃ final, (registryMachine (fun _ => []) fun (_ : Unit) _ text => text).run ({}, [])
        [.lookUp () (Http.text "A") [] [], .lookUp () (Http.text "a") [] []] = some final ∧
      OneVariable final := by
  have executed : ∃ final, (registryMachine (fun _ => []) fun (_ : Unit) _ text => text).run
      ({}, []) [.lookUp () (Http.text "A") [] [], .lookUp () (Http.text "a") [] []] =
        some final := ⟨_, rfl⟩
  rcases executed with ⟨final, executed⟩
  refine ⟨final, executed, (oneVariable_iff _ executed).1.mpr ?_⟩
  constructor
  · exact .inr (.inl rfl)
  · intro next taken
    constructor
    · exact .inl rfl
    · intro last taken
      trivial

/-- The second look-up of a name in another spelling makes a variable that is not registered. -/
theorem not_oneVariable :
    ¬∀ calls final, (registryMachine (fun _ => []) fun (_ : Unit) _ text => text).run ({}, [])
        calls = some final → OneVariable final := by
  intro all
  have one := all [.lookUp () (Http.text "a") [] [], .lookUp () (Http.text "A") [] []] _ rfl
  have second := one ⟨(), Http.text "A", 1⟩ (List.mem_cons_of_mem _ List.mem_cons_self)
  cases second

end Config

end FiberNet
