import FiberNet.Foundation.Machine
import FiberNet.Log.Logger

/-! # Loggers over a run

Every logger without an appender leaves its events to the root logger, so what matters is
which operations and reloads take the last appender of that one.
-/

namespace FiberNet

namespace Log

inductive LogMgrAction
  | addLogger (name : List UInt8) (loglevel : LogLevel)
  | delLogger (name : List UInt8)
  | addStdoutAppender (name : List UInt8)
  | delStdoutAppender (name : List UInt8)
  | addFileAppender (name filename : List UInt8)
  | delFileAppender (name filename : List UInt8)
  /-- An appender object of the caller. -/
  | newAppender (fileName : List UInt8)
  | addAppender (name : List UInt8) (app : Option Nat)
  | clearAppender (logger : Nat)
  | setLogLevel (logger : Nat) (level : LogLevel)
  | onLogChange (oldVal newVal : List LogDefine)

namespace LogMgr

def step (mgr : LogMgr) : LogMgrAction → Option LogMgr
  | .addLogger name loglevel => some (mgr.addLogger name loglevel)
  | .delLogger name => some (mgr.delLogger name)
  | .addStdoutAppender name => some (mgr.addStdoutAppender name)
  | .delStdoutAppender name => some (mgr.delStdoutAppender name)
  | .addFileAppender name filename => some (mgr.addFileAppender name filename)
  | .delFileAppender name filename => some (mgr.delFileAppender name filename)
  | .newAppender fileName => some (mgr.newAppender fileName)
  | .addAppender name app => mgr.addAppender name app
  | .clearAppender logger => some (mgr.modify logger Logger.clearAppender)
  | .setLogLevel logger level =>
      some (mgr.modify logger fun logger => { logger with l_loglevel := level })
  | .onLogChange oldVal newVal => mgr.onLogChange oldVal newVal

def machine : Machine LogMgr LogMgrAction where
  initial mgr := mgr = new
  step := step

def rootAppenders (mgr : LogMgr) : List Nat :=
  (mgr.loggers root).l_appenders

/-- Behind the loop over the new definitions, a name that is not among them finds the root
logger: it is mapped to it, or to nothing and `root` is not defined anew. -/
def FindsRoot (mgr : LogMgr) (oldVal newVal : List LogDefine) (name : List UInt8) : Prop :=
  mgr.log_map name = some root ∨
    (mgr.log_map name = none ∧ mgr.log_map (Http.text "root") = some root ∧
      ∀ item ∈ newVal, changed oldVal item = true → item.s_logName ≠ Http.text "root")

/-- The root logger does not lose its last appender. -/
def Keeps (mgr : LogMgr) : LogMgrAction → Prop
  | .delStdoutAppender name =>
      mgr.log_map name = some root → mgr.rootAppenders ≠ [stdoutAppender]
  | .delFileAppender name filename =>
      mgr.log_map name = some root →
        (mgr.app_map filename).all fun appender => mgr.rootAppenders ≠ [appender]
  | .clearAppender logger => logger ≠ root
  | .onLogChange oldVal newVal =>
      ∀ item ∈ oldVal, findDefine item newVal = none →
        ¬mgr.FindsRoot oldVal newVal item.s_logName
  | .addLogger _ _ | .delLogger _ | .addStdoutAppender _ | .addFileAppender _ _
  | .newAppender _ | .addAppender _ _ | .setLogLevel _ _ => True

structure Sound (mgr : LogMgr) : Prop where
  created : root < mgr.created
  mapped : ∀ {name logger}, mgr.log_map name = some logger → logger < mgr.created
  rooted : mgr.log_map (Http.text "root") ≠ none
  nodup : ∀ logger, (mgr.loggers logger).l_appenders.Nodup

/-! ## Changes of one logger -/

theorem modify_self (mgr : LogMgr) (logger : Nat) (change : Logger → Logger) :
    (mgr.modify logger change).loggers logger = change (mgr.loggers logger) :=
  Function.update_self _ _ _

theorem modify_others (mgr : LogMgr) {logger other : Nat} (change : Logger → Logger)
    (different : other ≠ logger) :
    (mgr.modify logger change).loggers other = mgr.loggers other :=
  Function.update_of_ne different _ _

theorem nodup_addAppender (appender : Nat) {logger : Logger}
    (nodup : logger.l_appenders.Nodup) : (logger.addAppender appender).l_appenders.Nodup := by
  rw [Logger.addAppender]
  split
  case isTrue => exact nodup
  case isFalse absent =>
    apply List.nodup_append.mpr
    refine ⟨nodup, List.nodup_cons.mpr ⟨List.not_mem_nil, List.nodup_nil⟩, ?_⟩
    rintro other member _ last rfl
    rw [List.mem_singleton.mp last] at member
    exact absent member

theorem addAppender_ne_nil (appender : Nat) {logger : Logger} (some : logger.l_appenders ≠ []) :
    (logger.addAppender appender).l_appenders ≠ [] := by
  rw [Logger.addAppender]
  split
  · exact some
  · exact List.append_ne_nil_of_left_ne_nil some _

/-- Only the last appender leaves the list empty. -/
theorem delAppender_eq_nil (appender : Nat) {logger : Logger} (some : logger.l_appenders ≠ []) :
    (logger.delAppender appender).l_appenders = [] ↔ logger.l_appenders = [appender] := by
  change logger.l_appenders.erase appender = [] ↔ _
  rw [List.erase_eq_nil_iff]
  exact or_iff_right some

theorem Sound.modify {mgr : LogMgr} (sound : mgr.Sound) (logger : Nat)
    {change : Logger → Logger}
    (kept : (mgr.loggers logger).l_appenders.Nodup →
      (change (mgr.loggers logger)).l_appenders.Nodup) :
    (mgr.modify logger change).Sound where
  created := sound.created
  mapped := sound.mapped
  rooted := sound.rooted
  nodup := by
    intro other
    by_cases same : other = logger
    · rw [same, modify_self]
      exact kept (sound.nodup logger)
    · rw [modify_others mgr change same]
      exact sound.nodup other

theorem rootAppenders_modify (mgr : LogMgr) (logger : Nat) (change : Logger → Logger) :
    (mgr.modify logger change).rootAppenders =
      if logger = root then (change (mgr.loggers root)).l_appenders else mgr.rootAppenders := by
  rw [rootAppenders]
  split
  case isTrue same => rw [same, modify_self]
  case isFalse different => rw [modify_others mgr change (Ne.symm different), rootAppenders]

/-- The tables of appenders play no role. -/
theorem Sound.of_eq {mgr other : LogMgr} (sound : mgr.Sound)
    (loggers : other.loggers = mgr.loggers) (created : other.created = mgr.created)
    (log_map : other.log_map = mgr.log_map) : other.Sound where
  created := created ▸ sound.created
  mapped := by
    intro name logger found
    rw [created]
    exact sound.mapped (log_map ▸ found)
  rooted := log_map ▸ sound.rooted
  nodup := loggers ▸ sound.nodup

theorem Sound.modifyNamed {mgr : LogMgr} (sound : mgr.Sound) (name : List UInt8)
    {change : Logger → Logger}
    (nodup : ∀ {logger : Logger}, logger.l_appenders.Nodup → (change logger).l_appenders.Nodup) :
    (mgr.modifyNamed name change).Sound := by
  rw [LogMgr.modifyNamed]
  split
  · exact sound
  · exact sound.modify _ nodup

section

variable {mgr : LogMgr} (present : mgr.rootAppenders ≠ [])
include present

theorem present_modify (logger : Nat) (change : Logger → Logger) :
    (mgr.modify logger change).rootAppenders ≠ [] ↔
      (logger = root → (change (mgr.loggers root)).l_appenders ≠ []) := by
  rw [rootAppenders_modify]
  split
  case isTrue same => exact ⟨fun kept _ => kept, fun kept => kept same⟩
  case isFalse different => exact iff_of_true present fun same => absurd same different

theorem present_modifyNamed (name : List UInt8) (change : Logger → Logger) :
    (mgr.modifyNamed name change).rootAppenders ≠ [] ↔
      (mgr.log_map name = some root → (change (mgr.loggers root)).l_appenders ≠ []) := by
  cases found : mgr.log_map name with
  | none =>
      rw [modifyNamed, found]
      exact iff_of_true present fun same => by cases same
  | some logger =>
      rw [modifyNamed, found, Option.some.injEq]
      exact present_modify present logger change

theorem present_addAppender (logger appender : Nat) :
    (mgr.modify logger (Logger.addAppender appender)).rootAppenders ≠ [] := by
  apply (present_modify present logger _).mpr
  intro _
  exact addAppender_ne_nil appender present

end

/-! ## New appenders -/

theorem Sound.addFileAppender {mgr : LogMgr} (sound : mgr.Sound) (name filename : List UInt8) :
    (mgr.addFileAppender name filename).Sound := by
  rw [addFileAppender.eq_def]
  split
  · exact sound
  · exact sound.modify _ (nodup_addAppender _)
  · apply Sound.modify
    · exact sound.of_eq rfl rfl rfl
    · exact nodup_addAppender _

theorem present_addFileAppender {mgr : LogMgr} (present : mgr.rootAppenders ≠ [])
    (name filename : List UInt8) : (mgr.addFileAppender name filename).rootAppenders ≠ [] := by
  rw [addFileAppender.eq_def]
  split
  · exact present
  · exact present_addAppender present _ _
  · apply present_addAppender
    exact present

theorem Sound.addAppender {mgr next : LogMgr} (sound : mgr.Sound) {name : List UInt8}
    {app : Option Nat} (taken : mgr.addAppender name app = some next) : next.Sound := by
  cases app with
  | none =>
      cases taken
      exact sound
  | some appender =>
      rcases Option.map_eq_some_iff.mp taken with ⟨logger, _, rfl⟩
      apply Sound.modify
      · exact sound.of_eq rfl rfl rfl
      · exact nodup_addAppender _

theorem present_addAppender_name {mgr next : LogMgr} (present : mgr.rootAppenders ≠ [])
    {name : List UInt8} {app : Option Nat} (taken : mgr.addAppender name app = some next) :
    next.rootAppenders ≠ [] := by
  cases app with
  | none =>
      cases taken
      exact present
  | some appender =>
      rcases Option.map_eq_some_iff.mp taken with ⟨logger, _, rfl⟩
      apply present_addAppender
      exact present

theorem new_sound : new.Sound := by
  apply Sound.addFileAppender
  constructor
  case created => exact Nat.one_pos
  case rooted => exact Option.some_ne_none root
  case mapped =>
    intro name logger found
    dsimp only at found
    by_cases same : name = Http.text "root"
    · rw [same, Function.update_self] at found
      cases found
      exact Nat.one_pos
    · rw [Function.update_of_ne same] at found
      cases found
  case nodup =>
    intro logger
    dsimp only
    by_cases same : logger = root
    · rw [same, Function.update_self]
      exact nodup_addAppender stdoutAppender List.nodup_nil
    · rw [Function.update_of_ne same]
      exact List.nodup_nil

theorem new_present : new.rootAppenders ≠ [] := by
  apply present_addFileAppender
  exact List.cons_ne_nil stdoutAppender []

/-! ## Definitions -/

/-- From one table to the other, `names` have been given new loggers. -/
structure Defined (names : List (List UInt8)) (mgr next : LogMgr) : Prop where
  root : next.loggers root = mgr.loggers root
  created : mgr.created ≤ next.created
  anew : ∀ name ∈ names, ∃ logger, next.log_map name = some logger ∧ mgr.created ≤ logger
  others : ∀ name ∉ names, next.log_map name = mgr.log_map name

theorem Defined.of_eq {mgr next : LogMgr}
    (root : next.loggers LogMgr.root = mgr.loggers LogMgr.root)
    (created : next.created = mgr.created) (log_map : next.log_map = mgr.log_map) :
    Defined [] mgr next where
  root := root
  created := created.ge
  anew := by
    intro name member
    cases member
  others := by
    intro name _
    rw [log_map]

theorem Defined.trans {names more : List (List UInt8)} {mgr next last : LogMgr}
    (first : Defined names mgr next) (second : Defined more next last) :
    Defined (names ++ more) mgr last where
  root := second.root.trans first.root
  created := Nat.le_trans first.created second.created
  anew := by
    intro name member
    by_cases again : name ∈ more
    · rcases second.anew name again with ⟨logger, found, later⟩
      exact ⟨logger, found, Nat.le_trans first.created later⟩
    · rw [second.others name again]
      apply first.anew name
      rcases List.mem_append.mp member with early | late
      · exact early
      · exact absurd late again
  others := by
    intro name absent
    rw [List.mem_append, not_or] at absent
    exact (second.others name absent.2).trans (first.others name absent.1)

theorem addLogger_mapped (mgr : LogMgr) (name : List UInt8) (loglevel : LogLevel) :
    (mgr.addLogger name loglevel).log_map name = some mgr.created :=
  Function.update_self _ _ _

theorem addLogger_others (mgr : LogMgr) {name other : List UInt8} (loglevel : LogLevel)
    (different : other ≠ name) : (mgr.addLogger name loglevel).log_map other = mgr.log_map other :=
  Function.update_of_ne different _ _

theorem addLogger_new (mgr : LogMgr) (name : List UInt8) (loglevel : LogLevel) :
    (mgr.addLogger name loglevel).loggers mgr.created = Logger.new name loglevel :=
  Function.update_self _ _ _

theorem addLogger_old (mgr : LogMgr) (name : List UInt8) (loglevel : LogLevel) {logger : Nat}
    (old : logger ≠ mgr.created) :
    (mgr.addLogger name loglevel).loggers logger = mgr.loggers logger :=
  Function.update_of_ne old _ _

theorem Sound.addLogger {mgr : LogMgr} (sound : mgr.Sound) (name : List UInt8)
    (loglevel : LogLevel) : (mgr.addLogger name loglevel).Sound where
  created := Nat.lt_succ_of_lt sound.created
  mapped := by
    intro other logger found
    by_cases same : other = name
    · rw [same, addLogger_mapped] at found
      cases found
      exact Nat.lt_succ_self _
    · rw [addLogger_others mgr loglevel same] at found
      exact Nat.lt_succ_of_lt (sound.mapped found)
  rooted := by
    by_cases same : Http.text "root" = name
    · rw [same, addLogger_mapped]
      exact Option.some_ne_none _
    · rw [addLogger_others mgr loglevel same]
      exact sound.rooted
  nodup := by
    intro logger
    by_cases same : logger = mgr.created
    · rw [same, addLogger_new]
      exact List.nodup_nil
    · rw [addLogger_old mgr name loglevel same]
      exact sound.nodup logger

theorem addLogger_defined {mgr : LogMgr} (sound : mgr.Sound) (name : List UInt8)
    (loglevel : LogLevel) : Defined [name] mgr (mgr.addLogger name loglevel) where
  root := addLogger_old mgr name loglevel sound.created.ne
  created := Nat.le_succ _
  anew := by
    intro other member
    rw [List.mem_singleton.mp member]
    exact ⟨mgr.created, addLogger_mapped mgr name loglevel, Nat.le_refl _⟩
  others := by
    intro other absent
    exact addLogger_others mgr loglevel (List.ne_of_not_mem_cons absent)

/-- Only the root logger itself matters to the root logger. -/
theorem modify_defined (mgr : LogMgr) {logger : Nat} (other : logger ≠ LogMgr.root)
    (change : Logger → Logger) : Defined [] mgr (mgr.modify logger change) :=
  .of_eq (modify_others mgr change other.symm) rfl rfl

theorem addAppender_defined {mgr next : LogMgr} {name : List UInt8} {logger : Nat}
    {app : Option Nat} (taken : mgr.addAppender name app = some next)
    (found : mgr.log_map name = some logger) (other : logger ≠ LogMgr.root) :
    Defined [] mgr next := by
  cases app with
  | none =>
      cases taken
      exact .of_eq rfl rfl rfl
  | some appender =>
      rw [addAppender, found] at taken
      cases taken
      exact .of_eq (modify_others _ _ other.symm) rfl rfl

/-- The loop adds to a logger that is not the root logger. -/
theorem defineAppenders_spec {name : List UInt8} {logger : Nat}
    (other : logger ≠ LogMgr.root) (apps : List AppenderDefine) {mgr next : LogMgr}
    (sound : mgr.Sound) (found : mgr.log_map name = some logger)
    (taken : defineAppenders name apps mgr = some next) :
    next.Sound ∧ Defined [] mgr next := by
  induction apps generalizing mgr with
  | nil =>
      cases taken
      exact ⟨sound, .of_eq rfl rfl rfl⟩
  | cons app rest induction =>
      rcases Option.bind_eq_some_iff.mp taken with ⟨added, first, later⟩
      have added_sound : added.Sound := by
        apply Sound.addAppender _ first
        exact sound.of_eq rfl rfl rfl
      have one := addAppender_defined first found other
      rcases induction added_sound ((one.others name List.not_mem_nil).trans found) later with
        ⟨next_sound, defined⟩
      have whole : Defined ([] ++ []) mgr next :=
        .trans ⟨one.root, one.created, one.anew, one.others⟩ defined
      exact ⟨next_sound, whole⟩

theorem define_spec {item : LogDefine} {mgr next : LogMgr} (sound : mgr.Sound)
    (taken : define item mgr = some next) :
    next.Sound ∧ Defined [item.s_logName] mgr next := by
  have other : mgr.created ≠ LogMgr.root := sound.created.ne'
  rcases defineAppenders_spec other item.apps
    ((sound.addLogger item.s_logName item.l_level).modify mgr.created fun _ => List.nodup_nil)
    (addLogger_mapped mgr item.s_logName item.l_level) taken with ⟨next_sound, defined⟩
  exact ⟨next_sound, ((addLogger_defined sound _ _).trans (modify_defined _ other _)).trans
    defined⟩

/-- The names that a reload defines anew. -/
def definedNames (oldVal newVal : List LogDefine) : List (List UInt8) :=
  (newVal.filter (changed oldVal)).map LogDefine.s_logName

theorem defineAll_spec (oldVal newVal : List LogDefine) {mgr next : LogMgr} (sound : mgr.Sound)
    (taken : defineAll oldVal newVal mgr = some next) :
    next.Sound ∧ Defined (definedNames oldVal newVal) mgr next := by
  induction newVal generalizing mgr with
  | nil =>
      cases taken
      exact ⟨sound, .of_eq rfl rfl rfl⟩
  | cons item rest induction =>
      rcases Option.bind_eq_some_iff.mp taken with ⟨defined, first, later⟩
      cases differs : changed oldVal item with
      | true =>
          rw [differs, if_pos rfl] at first
          rcases define_spec sound first with ⟨defined_sound, one⟩
          rcases induction defined_sound later with ⟨next_sound, others⟩
          rw [definedNames, List.filter_cons_of_pos differs]
          exact ⟨next_sound, one.trans others⟩
      | false =>
          rw [differs, if_neg Bool.false_ne_true] at first
          cases first
          rw [definedNames, List.filter_cons_of_neg (by simp [differs])]
          exact induction sound later

theorem mem_definedNames {oldVal newVal : List LogDefine} {name : List UInt8} :
    name ∈ definedNames oldVal newVal ↔
      ∃ item ∈ newVal, changed oldVal item = true ∧ item.s_logName = name := by
  simp [definedNames, and_assoc]

theorem Defined.root_iff {names : List (List UInt8)} {mgr next : LogMgr}
    (defined : Defined names mgr next) (sound : mgr.Sound) (name : List UInt8) :
    next.log_map name = some LogMgr.root ↔
      name ∉ names ∧ mgr.log_map name = some LogMgr.root := by
  by_cases member : name ∈ names
  · rcases defined.anew name member with ⟨logger, found, later⟩
    apply iff_of_false
    · intro same
      cases found.symm.trans same
      exact Nat.not_lt_of_le later sound.created
    · exact fun both => both.1 member
  · rw [defined.others name member]
    exact (and_iff_right member).symm

/-- A name that is not defined anew finds what it found, but for the name of the root
logger. -/
theorem lookUp_root_iff {mgr next : LogMgr} {oldVal newVal : List LogDefine} {name : List UInt8}
    (sound : mgr.Sound) (defined : Defined (definedNames oldVal newVal) mgr next)
    (absent : name ∉ definedNames oldVal newVal) :
    next.lookUp name = some LogMgr.root ↔ mgr.FindsRoot oldVal newVal name := by
  rw [lookUp, defined.others name absent, FindsRoot]
  cases found : mgr.log_map name with
  | some logger => simp
  | none =>
      rw [Option.none_or, defined.root_iff sound, mem_definedNames]
      constructor
      · rintro ⟨absent, rooted⟩
        refine .inr ⟨rfl, rooted, ?_⟩
        intro item member differs named
        exact absent ⟨item, member, differs, named⟩
      · rintro (mapped | ⟨_, rooted, kept⟩)
        · cases mapped
        · refine ⟨?_, rooted⟩
          rintro ⟨item, member, differs, named⟩
          exact kept item member differs named

/-- What is found by name does not depend on the loggers themselves. -/
theorem retire_spec {item : LogDefine} {mgr next : LogMgr} (sound : mgr.Sound)
    (taken : retire item mgr = some next) :
    next.Sound ∧ next.log_map = mgr.log_map ∧
      (next.rootAppenders ≠ [] ↔
        mgr.rootAppenders ≠ [] ∧ mgr.lookUp item.s_logName ≠ some LogMgr.root) := by
  rcases Option.map_eq_some_iff.mp taken with ⟨logger, found, rfl⟩
  refine ⟨sound.modify logger fun _ => List.nodup_nil, rfl, ?_⟩
  rw [rootAppenders_modify, found]
  simp only [ne_eq, Option.some.injEq]
  split
  case isTrue same => exact iff_of_false (absurd rfl) fun both => both.2 same
  case isFalse different => exact (and_iff_left different).symm

theorem retireAll_spec (newVal oldVal : List LogDefine) {mgr next : LogMgr} (sound : mgr.Sound)
    (taken : retireAll newVal oldVal mgr = some next) :
    next.Sound ∧ (next.rootAppenders ≠ [] ↔ mgr.rootAppenders ≠ [] ∧
      ∀ item ∈ oldVal, findDefine item newVal = none →
        mgr.lookUp item.s_logName ≠ some LogMgr.root) := by
  induction oldVal generalizing mgr with
  | nil =>
      cases taken
      exact ⟨sound, by simp⟩
  | cons item rest induction =>
      rcases Option.bind_eq_some_iff.mp taken with ⟨retired, first, later⟩
      rw [List.forall_mem_cons]
      cases gone : findDefine item newVal with
      | none =>
          rw [gone, if_pos Option.isNone_none] at first
          rcases retire_spec sound first with ⟨retired_sound, same, one⟩
          rcases induction retired_sound later with ⟨next_sound, others⟩
          refine ⟨next_sound, ?_⟩
          rw [others, one, and_assoc]
          simp only [lookUp, same, forall_const]
      | some _ =>
          rw [gone, if_neg (by simp)] at first
          cases first
          simpa using induction sound later

/-- Of the names that are gone, none is defined anew. -/
theorem not_mem_definedNames {oldVal newVal : List LogDefine} {item : LogDefine}
    (gone : findDefine item newVal = none) :
    item.s_logName ∉ definedNames oldVal newVal := by
  rw [mem_definedNames]
  rintro ⟨other, member, _, named⟩
  simpa [named] using List.find?_eq_none.mp gone other member

theorem Sound.onLogChange {mgr next : LogMgr} (sound : mgr.Sound)
    {oldVal newVal : List LogDefine} (taken : mgr.onLogChange oldVal newVal = some next) :
    next.Sound := by
  rcases Option.bind_eq_some_iff.mp taken with ⟨middle, first, later⟩
  exact (retireAll_spec newVal oldVal (defineAll_spec oldVal newVal sound first).1 later).1

theorem present_onLogChange {mgr next : LogMgr} (sound : mgr.Sound)
    (present : mgr.rootAppenders ≠ []) {oldVal newVal : List LogDefine}
    (taken : mgr.onLogChange oldVal newVal = some next) :
    next.rootAppenders ≠ [] ↔
      ∀ item ∈ oldVal, findDefine item newVal = none →
        ¬mgr.FindsRoot oldVal newVal item.s_logName := by
  rcases Option.bind_eq_some_iff.mp taken with ⟨middle, first, later⟩
  rcases defineAll_spec oldVal newVal sound first with ⟨middle_sound, defined⟩
  have middle_present : middle.rootAppenders ≠ [] := by
    rw [rootAppenders, defined.root]
    exact present
  rw [(retireAll_spec newVal oldVal middle_sound later).2, and_iff_right middle_present]
  apply forall₂_congr
  intro item _
  apply imp_congr_right
  intro gone
  exact not_congr (lookUp_root_iff sound defined (not_mem_definedNames gone))

/-! ## Runs -/

theorem Sound.delLogger {mgr : LogMgr} (sound : mgr.Sound) (name : List UInt8) :
    (mgr.delLogger name).Sound := by
  rw [LogMgr.delLogger]
  split
  case isTrue => exact sound
  case isFalse other =>
    refine ⟨sound.created, ?_, ?_, sound.nodup⟩
    · intro key logger found
      dsimp only at found
      by_cases same : key = name
      · rw [same, Function.update_self] at found
        cases found
      · rw [Function.update_of_ne same] at found
        exact sound.mapped found
    · dsimp only
      rw [Function.update_of_ne (Ne.symm other)]
      exact sound.rooted

theorem rootAppenders_delLogger (mgr : LogMgr) (name : List UInt8) :
    (mgr.delLogger name).rootAppenders = mgr.rootAppenders := by
  rw [delLogger]
  split <;> rfl

theorem Sound.delFileAppender {mgr : LogMgr} (sound : mgr.Sound) (name filename : List UInt8) :
    (mgr.delFileAppender name filename).Sound := by
  rw [LogMgr.delFileAppender]
  split
  · exact sound
  · exact sound.modifyNamed name (List.Nodup.erase _)

theorem present_delFileAppender {mgr : LogMgr} (present : mgr.rootAppenders ≠ [])
    (name filename : List UInt8) :
    (mgr.delFileAppender name filename).rootAppenders ≠ [] ↔
      mgr.Keeps (.delFileAppender name filename) := by
  cases opened : mgr.app_map filename with
  | none =>
      rw [delFileAppender, opened, Keeps, opened]
      exact iff_of_true present fun _ => rfl
  | some appender =>
      rw [delFileAppender, opened, Keeps, opened]
      apply (present_modifyNamed present name (Logger.delAppender appender)).trans
      apply imp_congr_right
      intro _
      rw [Option.all_some, decide_eq_true_iff]
      exact not_congr (delAppender_eq_nil appender present)

theorem Sound.step {mgr next : LogMgr} {action : LogMgrAction} (sound : mgr.Sound)
    (taken : mgr.step action = some next) : next.Sound := by
  cases action with
  | addAppender name app => exact sound.addAppender taken
  | onLogChange oldVal newVal => exact sound.onLogChange taken
  | addLogger name loglevel =>
      cases taken
      exact sound.addLogger name loglevel
  | delLogger name =>
      cases taken
      exact sound.delLogger name
  | addStdoutAppender name =>
      cases taken
      exact sound.modifyNamed name (nodup_addAppender stdoutAppender)
  | delStdoutAppender name =>
      cases taken
      exact sound.modifyNamed name (List.Nodup.erase stdoutAppender)
  | addFileAppender name filename =>
      cases taken
      exact sound.addFileAppender name filename
  | delFileAppender name filename =>
      cases taken
      exact sound.delFileAppender name filename
  | newAppender fileName =>
      cases taken
      exact sound.of_eq rfl rfl rfl
  | clearAppender logger =>
      cases taken
      exact sound.modify logger fun _ => List.nodup_nil
  | setLogLevel logger level =>
      cases taken
      exact sound.modify logger id

/-- The steps that take the last appender of the root logger. -/
theorem present_step {mgr next : LogMgr} {action : LogMgrAction} (sound : mgr.Sound)
    (present : mgr.rootAppenders ≠ []) (taken : mgr.step action = some next) :
    next.rootAppenders ≠ [] ↔ mgr.Keeps action := by
  cases action with
  | addAppender name app =>
      exact iff_of_true (present_addAppender_name present taken) trivial
  | onLogChange oldVal newVal => exact present_onLogChange sound present taken
  | addLogger name loglevel =>
      cases taken
      apply iff_of_true _ trivial
      rw [rootAppenders, addLogger_old mgr name loglevel sound.created.ne]
      exact present
  | delLogger name =>
      cases taken
      rw [rootAppenders_delLogger]
      exact iff_of_true present trivial
  | addStdoutAppender name =>
      cases taken
      apply (present_modifyNamed present name _).trans
      exact iff_of_true (fun _ => addAppender_ne_nil stdoutAppender present) trivial
  | delStdoutAppender name =>
      cases taken
      apply (present_modifyNamed present name _).trans
      apply imp_congr_right
      intro _
      exact not_congr (delAppender_eq_nil stdoutAppender present)
  | addFileAppender name filename =>
      cases taken
      exact iff_of_true (present_addFileAppender present name filename) trivial
  | delFileAppender name filename =>
      cases taken
      exact present_delFileAppender present name filename
  | newAppender fileName =>
      cases taken
      exact iff_of_true present trivial
  | clearAppender logger =>
      cases taken
      apply (present_modify present logger _).trans
      exact ⟨fun full same => full same rfl, fun other same => absurd same other⟩
  | setLogLevel logger level =>
      cases taken
      apply (present_modify present logger _).trans
      exact iff_of_true (fun _ => present) trivial

theorem sound_of_run {actions : List LogMgrAction} {final : LogMgr}
    (executed : machine.run new actions = some final) : final.Sound := by
  have reachable := Machine.Reachable.run (.initial rfl) executed
  apply reachable.invariant
  · rintro mgr rfl
    exact new_sound
  · intro mgr action next _ sound _ taken
    exact sound.step taken

/-- Every logger depends on the root logger having an appender. -/
theorem all_logs_iff {mgr : LogMgr} (sound : mgr.Sound) :
    (∀ level logger, mgr.Logs level logger) ↔ mgr.rootAppenders ≠ [] := by
  constructor
  · intro logs empty
    rcases logs (mgr.loggers root).l_loglevel root with ⟨depth, calls, returned, _⟩
    exact not_returned_root (Nat.le_refl _) empty depth _ _ _ returned
  · intro present level logger
    rw [logs_iff sound.nodup]
    exact .inr (.inr (.inr present))

/-- A call is as it should be exactly if the logger or the root logger has an appender or is
not interested, and all calls of a run, with any numbers for levels, are exactly if the root
logger keeps its appenders. -/
theorem neverBlocks_iff {actions : List LogMgrAction} {final : LogMgr}
    (executed : machine.run new actions = some final) :
    (∀ level logger, final.Logs level logger ↔ final.Heard level logger) ∧
      (machine.Always (fun mgr => ∀ level logger, mgr.Logs level logger) new actions ↔
        machine.Meets Keeps new actions) := by
  constructor
  · exact logs_iff (sound_of_run executed).nodup
  · apply Machine.always_iff _ actions new_sound ((all_logs_iff new_sound).mpr new_present) executed
    intro mgr action next sound logs taken
    have next_sound := sound.step taken
    refine ⟨next_sound, ?_⟩
    rw [all_logs_iff next_sound]
    exact present_step sound ((all_logs_iff sound).mp logs) taken

instance (mgr : LogMgr) (oldVal newVal : List LogDefine) (name : List UInt8) :
    Decidable (mgr.FindsRoot oldVal newVal name) :=
  inferInstanceAs (Decidable (_ ∨ _))

instance (mgr : LogMgr) : ∀ action, Decidable (mgr.Keeps action)
  | .delStdoutAppender _ | .delFileAppender _ _ => inferInstanceAs (Decidable (_ → _))
  | .clearAppender _ => inferInstanceAs (Decidable (_ ≠ _))
  | .onLogChange oldVal newVal =>
      inferInstanceAs (Decidable (∀ item ∈ oldVal, findDefine item newVal = none →
        ¬mgr.FindsRoot oldVal newVal item.s_logName))
  | .addLogger _ _ | .delLogger _ | .addStdoutAppender _ | .addFileAppender _ _
  | .newAppender _ | .addAppender _ _ | .setLogLevel _ _ => isTrue trivial

/-- A logger without appenders, beside a root logger that writes to its file only. -/
theorem neverBlocks_file :
    machine.Always (fun mgr => ∀ level logger, mgr.Logs level logger) new
      [.addLogger (Http.text "http") LogLevel.debug, .delStdoutAppender (Http.text "root")] :=
  (neverBlocks_iff rfl).2.mpr (by decide)

/-- The root logger without appenders calls itself. -/
theorem not_neverBlocks :
    ¬∀ actions final, machine.run new actions = some final →
      ∀ level logger, final.Logs level logger := by
  intro holds
  rcases holds [.delStdoutAppender (Http.text "root"),
    .delFileAppender (Http.text "root") (Http.text "root.log")] _ rfl LogLevel.info root with
    ⟨depth, calls, returned, _⟩
  exact not_returned_root (by decide) (by decide) depth _ _ _ returned

end LogMgr

end Log

end FiberNet
