import FiberNet.Config.Load
import FiberNet.Log.Event

/-! # Log definitions

The conversions between the definition of a logger and its YAML text. What they use of
the YAML library is read off its trees.
-/

namespace FiberNet

namespace Config

def Entries.find (key : List UInt8) : Entries → Option Yaml
  | .nil => none
  | .cons other value tail => if other = key then some value else tail.find key

def Entries.size : Entries → Nat
  | .nil => 0
  | .cons _ _ tail => tail.size + 1

def Items.toList : Items → List Yaml
  | .nil => []
  | .cons head tail => head :: tail.toList

def Entries.ofList : List (List UInt8 × Yaml) → Entries
  | [] => .nil
  | (key, value) :: rest => .cons key value (ofList rest)

end Config

namespace Log

open Config (Yaml Items Entries)

/-! ## The library -/

/-- What the conversions leave to the library. -/
structure YamlLibrary (Text : Type) where
  dump : Yaml → Text
  load : Text → Option Yaml
  /-- `as<std::string>()` of a node that is no scalar, which differs between releases. -/
  structured : Yaml → Option (List UInt8)
  /-- `node[i]` of a mapping. -/
  numbered : Entries → Nat → Yaml

/-- The exceptions of the conversions. -/
inductive Thrown
  | parserException
  | badSubscript
  | badConversion
  | nameIsNull
  deriving DecidableEq

/-- `node[key]`, which is not defined without the key. -/
def subscript (node : Yaml) (key : String) : Except Thrown (Option Yaml) :=
  match node with
  | .mapping entries => .ok (entries.find (Http.text key))
  | .null | .sequence _ => .ok none
  | .scalar _ => .error .badSubscript

variable {Text : Type}

/-- `as<std::string>()`. -/
def asString (yaml : YamlLibrary Text) : Option Yaml → Except Thrown (List UInt8)
  | some (.scalar text) => .ok text
  | some node => (yaml.structured node).elim (.error .badConversion) .ok
  | none => .error .badConversion

/-- `node[0]` to `node[node.size() - 1]`. -/
def children (yaml : YamlLibrary Text) : Option Yaml → List Yaml
  | some (.sequence items) => items.toList
  | some (.mapping entries) => (List.range entries.size).map (yaml.numbered entries)
  | some .null | some (.scalar _) | none => []

/-! ## The definitions -/

structure AppenderDefine where
  s_format : List UInt8
  l_level : LogLevel
  type : Bool
  s_filename : List UInt8
  deriving DecidableEq

structure LogDefine where
  s_logName : List UInt8
  s_format : List UInt8
  apps : List AppenderDefine
  l_level : LogLevel
  btLevel : LogLevel

/-- `operator==`, which does not look at `btLevel`. -/
def LogDefine.equals (left right : LogDefine) : Bool :=
  left.s_logName == right.s_logName && left.s_format == right.s_format &&
    left.apps == right.apps && left.l_level == right.l_level

/-- `node[key].IsDefined() ? node[key].as<std::string>() : default`. -/
def stringOr (yaml : YamlLibrary Text) (default : List UInt8) (node : Yaml) (key : String) :
    Except Thrown (List UInt8) := do
  let value ← subscript node key
  if value.isSome then asString yaml value else .ok default

/-- The format of an appender. The test is on the node of the logger. -/
def decodeFormat (yaml : YamlLibrary Text) (node n : Yaml) : Except Thrown (List UInt8) := do
  let formatter ← subscript node "formatter"
  if formatter.isSome then do
    let formatter ← subscript n "formatter"
    asString yaml formatter
  else .ok []

/-- The type and the file of an appender, which stays on the standard output without one. -/
def decodeTarget (yaml : YamlLibrary Text) (n : Yaml) (ad : AppenderDefine) :
    Except Thrown AppenderDefine := do
  let type ← stringOr yaml (Http.text "StdoutAppender") n "type"
  if type = Http.text "StdoutAppender" then .ok ad
  else do
    let file ← subscript n "file"
    if file.isSome then do
      let s_filename ← asString yaml file
      .ok { ad with type := true, s_filename }
    else .ok ad

/-- The body of the loop over the appenders. -/
def decodeAppender (yaml : YamlLibrary Text) (node n : Yaml) : Except Thrown AppenderDefine := do
  let level ← stringOr yaml [] n "level"
  let s_format ← decodeFormat yaml node n
  decodeTarget yaml n
    { s_format, l_level := LogLevel.fromString level, type := false, s_filename := [] }

/-- `Lexical_Cast<std::string, LogDefine>` behind `YAML::Load`. -/
def decode (yaml : YamlLibrary Text) (node : Yaml) : Except Thrown LogDefine := do
  let name ← subscript node "name"
  if name.isSome then do
    let s_logName ← asString yaml name
    let btLevel ← stringOr yaml (Http.text "ERROR") node "btLevel"
    let level ← stringOr yaml [] node "level"
    let s_format ← stringOr yaml [] node "formatter"
    let appenders ← subscript node "appenders"
    let apps ← (children yaml appenders).mapM (decodeAppender yaml node)
    .ok {
      s_logName
      s_format
      apps
      l_level := LogLevel.fromString level
      btLevel := LogLevel.fromString btLevel }
  else .error .nameIsNull

def stringToLogDefine (yaml : YamlLibrary Text) (v : Text) : Except Thrown LogDefine :=
  match yaml.load v with
  | none => .error .parserException
  | some node => decode yaml node

/-- The node that the loop over the appenders makes. -/
def encodeAppender (val : AppenderDefine) : Yaml :=
  .mapping (Entries.ofList
    ((if val.type then
        [(Http.text "type", .scalar (Http.text "FileAppender")),
          (Http.text "file", .scalar val.s_filename)]
      else [(Http.text "type", .scalar (Http.text "StdoutAppender"))]) ++
      [(Http.text "level", .scalar (LogLevel.toString val.l_level)),
        (Http.text "formatter", .scalar val.s_format)]))

/-- The loop over the appenders. The node that it makes is called `app` too, and is gone at
the end of the body. -/
def encodeApps (app : Items) : List AppenderDefine → Items
  | [] => app
  | val :: rest =>
      let _app := encodeAppender val
      encodeApps app rest

/-- `Lexical_Cast<LogDefine, std::string>` before the node is written. -/
def encode (v : LogDefine) : Yaml :=
  .mapping (Entries.ofList [
    (Http.text "name", .scalar v.s_logName),
    (Http.text "level", .scalar (LogLevel.toString v.l_level)),
    (Http.text "btLevel", .scalar (LogLevel.toString v.btLevel)),
    (Http.text "formatter", .scalar v.s_format),
    (Http.text "appenders", .sequence (encodeApps .nil v.apps))])

def logDefineToString (yaml : YamlLibrary Text) (v : LogDefine) : Text :=
  yaml.dump (encode v)

/-! ## What is read back -/

theorem encodeApps_eq (app : Items) (apps : List AppenderDefine) :
    encodeApps app apps = app := by
  induction apps with
  | nil => rfl
  | cons _ _ induction => exact induction

/-- The levels that have a name. -/
def LogDefine.Levelled (v : LogDefine) : Prop :=
  (LogLevel.debug ≤ v.l_level ∧ v.l_level ≤ LogLevel.fatal) ∧
    LogLevel.debug ≤ v.btLevel ∧ v.btLevel ≤ LogLevel.fatal

instance (v : LogDefine) : Decidable v.Levelled := inferInstanceAs (Decidable (_ ∧ _))

/-- What is written has lost the appenders. -/
theorem decode_encode (yaml : YamlLibrary Text) {v : LogDefine} (levelled : v.Levelled) :
    decode yaml (encode v) = .ok { v with apps := [] } := by
  have executed : decode yaml (encode v) = .ok {
      v with
      apps := []
      l_level := LogLevel.fromString (LogLevel.toString v.l_level)
      btLevel := LogLevel.fromString (LogLevel.toString v.btLevel) } := by
    rw [encode, encodeApps_eq]
    rfl
  rw [executed, LogLevel.fromString_toString levelled.1.1 levelled.1.2,
    LogLevel.fromString_toString levelled.2.1 levelled.2.2]

def RoundTrips (yaml : YamlLibrary Text) (v : LogDefine) : Prop :=
  ∃ read, stringToLogDefine yaml (logDefineToString yaml v) = .ok read ∧
    read.equals v = true ∧ read.btLevel = v.btLevel

theorem roundTrips_iff_of_load {yaml : YamlLibrary Text} {v : LogDefine} (levelled : v.Levelled)
    (loads : yaml.load (yaml.dump (encode v)) = some (encode v)) :
    RoundTrips yaml v ↔ v.apps = [] := by
  have executed : stringToLogDefine yaml (logDefineToString yaml v) = .ok { v with apps := [] } := by
    rw [stringToLogDefine, logDefineToString, loads]
    exact decode_encode yaml levelled
  rw [RoundTrips, executed]
  constructor
  · rintro ⟨read, same, equals, _⟩
    cases same
    simp only [LogDefine.equals, Bool.and_eq_true, beq_iff_eq] at equals
    exact equals.1.2.symm
  · intro empty
    refine ⟨_, rfl, ?_, rfl⟩
    simp [LogDefine.equals, empty]

/-! ## What is accepted -/

/-- The conversion does not throw. -/
def Returns {Value : Type} (result : Except Thrown Value) : Prop :=
  ∃ value, result = .ok value

theorem returns_bind {First Second : Type} {first : Except Thrown First}
    {second : First → Except Thrown Second} {value : First} (done : first = .ok value) :
    Returns (first >>= second) ↔ Returns (second value) := by
  rw [done]
  rfl

theorem returns_bind_iff {First Second : Type} {first : Except Thrown First}
    {second : First → Except Thrown Second} (always : ∀ value, Returns (second value)) :
    Returns (first >>= second) ↔ Returns first := by
  cases first with
  | error thrown =>
      constructor
      · rintro ⟨_, failed⟩
        cases failed
      · rintro ⟨_, failed⟩
        cases failed
  | ok value => exact ⟨fun _ => ⟨value, rfl⟩, fun _ => always value⟩

theorem not_returns_error {Value : Type} {thrown : Thrown} :
    ¬Returns (.error thrown : Except Thrown Value) := by
  rintro ⟨_, failed⟩
  cases failed

theorem returns_mapM {First Second : Type} (convert : First → Except Thrown Second)
    (values : List First) :
    Returns (values.mapM convert) ↔ ∀ value ∈ values, Returns (convert value) := by
  induction values with
  | nil => exact ⟨fun _ _ member => absurd member List.not_mem_nil, fun _ => ⟨[], rfl⟩⟩
  | cons value rest induction =>
      rw [List.mapM_cons, List.forall_mem_cons, ← induction]
      cases converted : convert value with
      | error thrown =>
          exact ⟨fun failed => absurd failed not_returns_error,
            fun both => absurd both.1 not_returns_error⟩
      | ok first =>
          rw [returns_bind rfl]
          exact (returns_bind_iff fun others => ⟨first :: others, rfl⟩).trans
            (and_iff_right ⟨first, rfl⟩).symm

/-- The key is left out or has a text. -/
def OptionalText (node : Yaml) (key : String) : Prop :=
  ∃ text : Option (List UInt8), subscript node key = .ok (text.map .scalar)

structure AppenderTree (n : Yaml) : Prop where
  level : OptionalText n "level"
  formatter : OptionalText n "formatter"
  type : OptionalText n "type"
  file : OptionalText n "file"

/-- A tree with a name. Every other key may be left out. -/
structure DefineTree (node : Yaml) (appenders : List Yaml) : Prop where
  name : ∃ text, subscript node "name" = .ok (some (.scalar text))
  btLevel : OptionalText node "btLevel"
  level : OptionalText node "level"
  formatter : OptionalText node "formatter"
  listed : (subscript node "appenders" = .ok none ∧ appenders = []) ∨
    ∃ items, subscript node "appenders" = .ok (some (.sequence items)) ∧
      appenders = items.toList
  each : ∀ n ∈ appenders, AppenderTree n

theorem stringOr_returns (yaml : YamlLibrary Text) {node : Yaml} {key : String}
    (optional : OptionalText node key) (default : List UInt8) :
    Returns (stringOr yaml default node key) := by
  rcases optional with ⟨text, found⟩
  rw [stringOr, returns_bind found]
  cases text <;> exact ⟨_, rfl⟩

theorem decodeTarget_returns (yaml : YamlLibrary Text) {n : Yaml} (tree : AppenderTree n)
    (ad : AppenderDefine) : Returns (decodeTarget yaml n ad) := by
  rcases stringOr_returns yaml tree.type (Http.text "StdoutAppender") with ⟨type, typed⟩
  rcases tree.file with ⟨file, filed⟩
  rw [decodeTarget, returns_bind typed]
  split
  · exact ⟨ad, rfl⟩
  · rw [returns_bind filed]
    cases file <;> exact ⟨_, rfl⟩

/-- The format of an appender is read exactly if the logger has one. -/
theorem decodeFormat_returns (yaml : YamlLibrary Text) {node n : Yaml} {formatter : Option Yaml}
    (formatted : subscript node "formatter" = .ok formatter) (tree : AppenderTree n) :
    Returns (decodeFormat yaml node n) ↔
      formatter = none ∨ subscript n "formatter" ≠ .ok none := by
  rcases tree.formatter with ⟨text, found⟩
  rw [decodeFormat, returns_bind formatted, found]
  cases formatter with
  | none => exact ⟨fun _ => .inl rfl, fun _ => ⟨[], rfl⟩⟩
  | some value =>
      cases text with
      | none =>
          constructor
          · intro failed
            exact absurd failed not_returns_error
          · rintro (missing | present)
            · cases missing
            · exact absurd rfl present
      | some text =>
          constructor
          · intro _
            apply Or.inr
            intro missing
            cases missing
          · intro _
            exact ⟨text, rfl⟩

theorem decodeAppender_returns (yaml : YamlLibrary Text) {node n : Yaml} {formatter : Option Yaml}
    (formatted : subscript node "formatter" = .ok formatter) (tree : AppenderTree n) :
    Returns (decodeAppender yaml node n) ↔
      formatter = none ∨ subscript n "formatter" ≠ .ok none := by
  rcases stringOr_returns yaml tree.level [] with ⟨level, levelled⟩
  rw [decodeAppender, returns_bind levelled,
    returns_bind_iff fun _ => decodeTarget_returns yaml tree _]
  exact decodeFormat_returns yaml formatted tree

theorem children_of_listed (yaml : YamlLibrary Text) {node : Yaml} {appenders : List Yaml}
    (tree : DefineTree node appenders) :
    ∃ value, subscript node "appenders" = .ok value ∧ children yaml value = appenders := by
  rcases tree.listed with ⟨missing, empty⟩ | ⟨items, found, same⟩
  · exact ⟨none, missing, empty.symm⟩
  · exact ⟨some (.sequence items), found, same.symm⟩

theorem decode_returns (yaml : YamlLibrary Text) {node : Yaml} {appenders : List Yaml}
    (tree : DefineTree node appenders) :
    Returns (decode yaml node) ↔
      subscript node "formatter" = .ok none ∨
        ∀ n ∈ appenders, subscript n "formatter" ≠ .ok none := by
  rcases tree.name with ⟨name, named⟩
  rcases tree.formatter with ⟨format, formatted⟩
  rcases stringOr_returns yaml tree.btLevel (Http.text "ERROR") with ⟨btLevel, bt⟩
  rcases stringOr_returns yaml tree.level [] with ⟨level, levelled⟩
  rcases stringOr_returns yaml tree.formatter [] with ⟨s_format, read⟩
  rcases children_of_listed yaml tree with ⟨value, listed, same⟩
  have text : asString yaml (some (.scalar name)) = .ok name := rfl
  rw [decode, returns_bind named, if_pos Option.isSome_some, returns_bind text, returns_bind bt,
    returns_bind levelled, returns_bind read, returns_bind listed, same,
    returns_bind_iff fun apps => ⟨_, rfl⟩, returns_mapM]
  constructor
  · intro each
    by_cases missing : format.map Yaml.scalar = none
    · exact .inl (formatted.trans (congrArg Except.ok missing))
    · apply Or.inr
      intro n member
      exact ((decodeAppender_returns yaml formatted (tree.each n member)).mp
        (each n member)).resolve_left missing
  · intro condition n member
    apply (decodeAppender_returns yaml formatted (tree.each n member)).mpr
    rcases condition with missing | present
    · exact .inl (Except.ok.inj (formatted.symm.trans missing))
    · exact .inr (present n member)

/-! ## The round trip -/

theorem logDefine_iff {yaml : YamlLibrary Text} {v : LogDefine} (levelled : v.Levelled)
    (saved : yaml.load (yaml.dump (encode v)) = some (encode v)) {node : Yaml}
    {appenders : List Yaml} (tree : DefineTree node appenders)
    (loaded : yaml.load (yaml.dump node) = some node) :
    (RoundTrips yaml v ↔ v.apps = []) ∧
      (Returns (stringToLogDefine yaml (yaml.dump node)) ↔
        subscript node "formatter" = .ok none ∨
          ∀ n ∈ appenders, subscript n "formatter" ≠ .ok none) := by
  constructor
  · exact roundTrips_iff_of_load levelled saved
  · rw [stringToLogDefine, loaded]
    exact decode_returns yaml tree

/-- The definition of the root logger as the default constructor of a logger has it. -/
def rootDefine (apps : List AppenderDefine) : LogDefine where
  s_logName := Http.text "root"
  s_format := []
  apps := apps
  l_level := LogLevel.debug
  btLevel := LogLevel.error

/-- The root logger without appenders, as the library writes it. -/
def rootText : List UInt8 :=
  Http.text "name: root\nlevel: DEBUG\nbtLevel: ERROR\nformatter: \"\"\nappenders:\n  []"

/-- An appender with a format. -/
def stdoutTree : Yaml :=
  .mapping (Entries.ofList [
    (Http.text "type", .scalar (Http.text "StdoutAppender")),
    (Http.text "formatter", .scalar (Http.text "%m%n"))])

/-- A logger with a format and this appender. -/
def stdoutLogger : Yaml :=
  .mapping (Entries.ofList [
    (Http.text "name", .scalar (Http.text "root")),
    (Http.text "formatter", .scalar (Http.text "%s%n")),
    (Http.text "appenders", .sequence (.cons stdoutTree .nil))])

def stdoutText : List UInt8 :=
  Http.text "name: root\nformatter: %s%n\nappenders:\n  - type: StdoutAppender\n    formatter: %m%n"

/-- A library that knows these two trees, one of three keys and one of five. -/
def twoTrees : YamlLibrary (List UInt8) where
  dump
    | .mapping (.cons _ _ (.cons _ _ (.cons _ _ .nil))) => stdoutText
    | _ => rootText
  load text :=
    if text = rootText then some (encode (rootDefine []))
    else if text = stdoutText then some stdoutLogger
    else none
  structured _ := none
  numbered _ _ := .null

theorem logDefine_root :
    RoundTrips twoTrees (rootDefine []) ∧
      Returns (stringToLogDefine twoTrees (twoTrees.dump stdoutLogger)) := by
  have tree : DefineTree stdoutLogger [stdoutTree] := {
    name := ⟨_, rfl⟩
    btLevel := ⟨none, rfl⟩
    level := ⟨none, rfl⟩
    formatter := ⟨some (Http.text "%s%n"), rfl⟩
    listed := .inr ⟨_, rfl, rfl⟩
    each := by
      intro n member
      cases List.mem_singleton.mp member
      exact ⟨⟨none, rfl⟩, ⟨some (Http.text "%m%n"), rfl⟩,
        ⟨some (Http.text "StdoutAppender"), rfl⟩, ⟨none, rfl⟩⟩ }
  have other : stdoutText ≠ rootText := by decide
  have loaded : twoTrees.load (twoTrees.dump stdoutLogger) = some stdoutLogger := by
    show (if stdoutText = rootText then some (encode (rootDefine []))
      else if stdoutText = stdoutText then some stdoutLogger else none) = some stdoutLogger
    rw [if_neg other, if_pos rfl]
  have saved : twoTrees.load (twoTrees.dump (encode (rootDefine []))) =
      some (encode (rootDefine [])) := by
    show (if rootText = rootText then some (encode (rootDefine []))
      else if rootText = stdoutText then some stdoutLogger else none) =
        some (encode (rootDefine []))
    rw [if_pos rfl]
  have both := logDefine_iff (v := rootDefine []) (by decide) saved tree loaded
  refine ⟨both.1.mpr rfl, both.2.mpr (.inr fun n member => ?_)⟩
  cases List.mem_singleton.mp member
  nofun

/-- Trees that are their own texts. -/
def treeTexts : YamlLibrary Yaml where
  dump tree := tree
  load := some
  structured _ := none
  numbered _ _ := .null

/-- A logger with a format and one appender without a key. -/
def formatted : Yaml :=
  .mapping (Entries.ofList [
    (Http.text "name", .scalar (Http.text "root")),
    (Http.text "formatter", .scalar (Http.text "%s%n")),
    (Http.text "appenders", .sequence (.cons (.mapping .nil) .nil))])

theorem not_logDefine :
    (¬∀ v : LogDefine, v.s_logName ≠ [] → v.Levelled → RoundTrips treeTexts v) ∧
      ¬∀ (node : Yaml) (appenders : List Yaml), DefineTree node appenders →
        Returns (stringToLogDefine treeTexts (treeTexts.dump node)) := by
  constructor
  · intro claimed
    have wrong := (roundTrips_iff_of_load (by decide) rfl).mp
      (claimed (rootDefine [{ s_format := [], l_level := 1, type := false, s_filename := [] }])
        (by decide) (by decide))
    cases wrong
  · intro claimed
    rcases claimed formatted [.mapping .nil] {
        name := ⟨_, rfl⟩
        btLevel := ⟨none, rfl⟩
        level := ⟨none, rfl⟩
        formatter := ⟨some (Http.text "%s%n"), rfl⟩
        listed := .inr ⟨_, rfl, rfl⟩
        each := by
          intro n member
          cases List.mem_singleton.mp member
          exact ⟨⟨none, rfl⟩, ⟨none, rfl⟩, ⟨none, rfl⟩, ⟨none, rfl⟩⟩ } with ⟨_, failed⟩
    cases failed

end Log

end FiberNet
