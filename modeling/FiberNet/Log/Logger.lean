import FiberNet.Log.Define
import Mathlib.Data.List.Nodup
import Mathlib.Logic.Function.Basic

/-! # The table of loggers

Loggers and appenders are shared by reference, so the tables hold their numbers. The
formatters are left out: whom an event reaches does not depend on them.
-/

namespace FiberNet

namespace Log

structure Logger where
  s_name : List UInt8
  l_loglevel : LogLevel
  _btLevel : LogLevel
  l_appenders : List Nat

def Logger.new (s_name : List UInt8) (l_loglevel : LogLevel) : Logger where
  s_name := s_name
  l_loglevel := l_loglevel
  _btLevel := LogLevel.error
  l_appenders := []

def Logger.addAppender (appender : Nat) (logger : Logger) : Logger :=
  if appender ∈ logger.l_appenders then logger
  else { logger with l_appenders := logger.l_appenders ++ [appender] }

def Logger.delAppender (appender : Nat) (logger : Logger) : Logger :=
  { logger with l_appenders := logger.l_appenders.erase appender }

def Logger.clearAppender (logger : Logger) : Logger :=
  { logger with l_appenders := [] }

/-- `appenders` are the file names of the appender objects, `loggers` and `appenders` are
given up to `created` and `opened`. -/
structure LogMgr where
  loggers : Nat → Logger
  created : Nat
  appenders : Nat → List UInt8
  opened : Nat
  log_map : List UInt8 → Option Nat
  app_map : List UInt8 → Option Nat

namespace LogMgr

/-- The static logger of `getRootLogger`. -/
def root : Nat := 0

def stdoutAppender : Nat := 0

def modify (logger : Nat) (change : Logger → Logger) (mgr : LogMgr) : LogMgr :=
  { mgr with loggers := Function.update mgr.loggers logger (change (mgr.loggers logger)) }

/-! ## The operations -/

/-- A new appender object. -/
def newAppender (fileName : List UInt8) (mgr : LogMgr) : LogMgr :=
  { mgr with
    appenders := Function.update mgr.appenders mgr.opened fileName
    opened := mgr.opened + 1 }

def addLogger (name : List UInt8) (loglevel : LogLevel) (mgr : LogMgr) : LogMgr :=
  { mgr with
    loggers := Function.update mgr.loggers mgr.created (Logger.new name loglevel)
    created := mgr.created + 1
    log_map := Function.update mgr.log_map name (some mgr.created) }

def delLogger (name : List UInt8) (mgr : LogMgr) : LogMgr :=
  if name = Http.text "root" then mgr
  else { mgr with log_map := Function.update mgr.log_map name none }

/-- Changes the logger of a name, if there is one. -/
def modifyNamed (name : List UInt8) (change : Logger → Logger) (mgr : LogMgr) : LogMgr :=
  match mgr.log_map name with
  | none => mgr
  | some logger => mgr.modify logger change

def addStdoutAppender (name : List UInt8) (mgr : LogMgr) : LogMgr :=
  mgr.modifyNamed name (Logger.addAppender stdoutAppender)

def delStdoutAppender (name : List UInt8) (mgr : LogMgr) : LogMgr :=
  mgr.modifyNamed name (Logger.delAppender stdoutAppender)

def addFileAppender (name filename : List UInt8) (mgr : LogMgr) : LogMgr :=
  match mgr.log_map name, mgr.app_map filename with
  | none, _ => mgr
  | some logger, some appender => mgr.modify logger (Logger.addAppender appender)
  | some logger, none =>
      let added := mgr.newAppender filename
      { added with app_map := Function.update mgr.app_map filename (some mgr.opened) }.modify
        logger (Logger.addAppender mgr.opened)

def delFileAppender (name filename : List UInt8) (mgr : LogMgr) : LogMgr :=
  match mgr.app_map filename with
  | none => mgr
  | some appender => mgr.modifyNamed name (Logger.delAppender appender)

/-- For a name without a logger, a null pointer is followed. -/
def addAppender (name : List UInt8) (app : Option Nat) (mgr : LogMgr) : Option LogMgr :=
  match app with
  | none => some mgr
  | some appender =>
      (mgr.log_map name).map fun logger =>
        { mgr with
          app_map := Function.update mgr.app_map (mgr.appenders appender) (some appender) }.modify
          logger (Logger.addAppender appender)

def lookUp (name : List UInt8) (mgr : LogMgr) : Option Nat :=
  (mgr.log_map name).or (mgr.log_map (Http.text "root"))

/-- The constructor. -/
def new : LogMgr :=
  addFileAppender (Http.text "root") (Http.text "root.log") {
    loggers := Function.update (fun _ => Logger.new [] LogLevel.debug) root
      ((Logger.new (Http.text "root") LogLevel.info).addAppender stdoutAppender)
    created := 1
    appenders := fun _ => Http.text "s4d0ut"
    opened := 1
    log_map := Function.update (fun _ => none) (Http.text "root") (some root)
    app_map := Function.update (fun _ => none) (Http.text "s4d0ut") (some stdoutAppender) }

/-! ## Reloads -/

/-- `set.find`, where definitions of one name are the same. -/
def findDefine (item : LogDefine) (items : List LogDefine) : Option LogDefine :=
  items.find? fun other => other.s_logName = item.s_logName

/-- The definition is new or differs from the old one. -/
def changed (oldVal : List LogDefine) (item : LogDefine) : Bool :=
  match findDefine item oldVal with
  | none => true
  | some other => !item.equals other

/-- The loop over the appenders of a definition. -/
def defineAppenders (name : List UInt8) : List AppenderDefine → LogMgr → Option LogMgr
  | [], mgr => some mgr
  | app :: rest, mgr =>
      ((mgr.newAppender (if app.type then app.s_filename else Http.text "s4d0ut")).addAppender
        name (some mgr.opened)).bind (defineAppenders name rest)

/-- The body of the loop over the new definitions, for one that has changed. -/
def define (item : LogDefine) (mgr : LogMgr) : Option LogMgr :=
  defineAppenders item.s_logName item.apps
    ((mgr.addLogger item.s_logName item.l_level).modify mgr.created fun logger =>
      { logger.clearAppender with _btLevel := item.btLevel, l_loglevel := item.l_level })

def defineAll (oldVal : List LogDefine) : List LogDefine → LogMgr → Option LogMgr
  | [], mgr => some mgr
  | item :: rest, mgr =>
      (if changed oldVal item then define item mgr else some mgr).bind (defineAll oldVal rest)

/-- A definition that is gone silences the logger that its name finds. -/
def retire (item : LogDefine) (mgr : LogMgr) : Option LogMgr :=
  (mgr.lookUp item.s_logName).map fun logger =>
    mgr.modify logger fun logger => { logger.clearAppender with l_loglevel := 100 }

def retireAll (newVal : List LogDefine) : List LogDefine → LogMgr → Option LogMgr
  | [], mgr => some mgr
  | item :: rest, mgr =>
      (if (findDefine item newVal).isNone then retire item mgr else some mgr).bind
        (retireAll newVal rest)

def onLogChange (oldVal newVal : List LogDefine) (mgr : LogMgr) : Option LogMgr :=
  (defineAll oldVal newVal mgr).bind (retireAll newVal oldVal)

end LogMgr

/-! ## Logging -/

/-- What a call of `Logger::log` calls. -/
inductive LogCall
  | appender (appender logger : Nat)
  | rootLogger
  deriving DecidableEq

/-- `blocked` is a call that waits for a lock that it holds itself. -/
inductive LogOutcome
  | unfinished
  | blocked
  | returned (held : List Nat) (calls : List LogCall)

namespace LogMgr

/-- `Logger::log` with a bound on the nested calls. `held` are the locks of the calls around
it. -/
def log (mgr : LogMgr) (level : LogLevel) : Nat → List Nat → Nat → LogOutcome
  | 0, _, _ => .unfinished
  | depth + 1, held, logger =>
      if level < (mgr.loggers logger).l_loglevel then .returned held []
      else if logger ∈ held then .blocked
      else if (mgr.loggers logger).l_appenders = [] then
        match log mgr level depth (logger :: held) root with
        | .returned held calls => .returned (held.erase logger) (.rootLogger :: calls)
        | .blocked => .blocked
        | .unfinished => .unfinished
      else
        .returned ((logger :: held).erase logger)
          ((mgr.loggers logger).l_appenders.map (.appender · logger))

/-- A call that holds no lock ends without one, and has given the event to each appender
once or, without an appender, to the root logger. -/
def Logs (mgr : LogMgr) (level : LogLevel) (logger : Nat) : Prop :=
  ∃ depth calls, mgr.log level depth [] logger = .returned [] calls ∧
    ((mgr.loggers logger).l_loglevel ≤ level →
      (mgr.loggers logger).l_appenders.Nodup ∧
      ((mgr.loggers logger).l_appenders ≠ [] →
        calls = (mgr.loggers logger).l_appenders.map (.appender · logger)) ∧
      ((mgr.loggers logger).l_appenders = [] → ∃ others, calls = .rootLogger :: others))

/-- The logger or the root logger has an appender or is not interested. -/
def Heard (mgr : LogMgr) (level : LogLevel) (logger : Nat) : Prop :=
  level < (mgr.loggers logger).l_loglevel ∨ (mgr.loggers logger).l_appenders ≠ [] ∨
    level < (mgr.loggers root).l_loglevel ∨ (mgr.loggers root).l_appenders ≠ []

/-! ## One call -/

theorem log_silent {mgr : LogMgr} {level : LogLevel} {logger : Nat}
    (silent : level < (mgr.loggers logger).l_loglevel) (depth : Nat) (held : List Nat) :
    mgr.log level (depth + 1) held logger = .returned held [] := by
  rw [log, if_pos silent]

theorem log_appenders {mgr : LogMgr} {level : LogLevel} {logger : Nat}
    (passes : (mgr.loggers logger).l_loglevel ≤ level)
    (some : (mgr.loggers logger).l_appenders ≠ []) {held : List Nat} (free : logger ∉ held)
    (depth : Nat) :
    mgr.log level (depth + 1) held logger =
      .returned held ((mgr.loggers logger).l_appenders.map (.appender · logger)) := by
  rw [log, if_neg (Nat.not_lt_of_le passes), if_neg free, if_neg some, List.erase_cons_head]

/-- Without an appender, the call keeps its lock while the root logger is called. -/
theorem log_root {mgr : LogMgr} {level : LogLevel} {logger : Nat}
    (passes : (mgr.loggers logger).l_loglevel ≤ level)
    (empty : (mgr.loggers logger).l_appenders = []) {held : List Nat} (free : logger ∉ held)
    (depth : Nat) :
    mgr.log level (depth + 1) held logger =
      match mgr.log level depth (logger :: held) root with
      | .returned held calls => .returned (held.erase logger) (.rootLogger :: calls)
      | .blocked => .blocked
      | .unfinished => .unfinished := by
  rw [log, if_neg (Nat.not_lt_of_le passes), if_neg free, if_pos empty]

theorem log_locked {mgr : LogMgr} {level : LogLevel} {logger : Nat}
    (passes : (mgr.loggers logger).l_loglevel ≤ level) {held : List Nat} (locked : logger ∈ held)
    (depth : Nat) : mgr.log level (depth + 1) held logger = .blocked := by
  rw [log, if_neg (Nat.not_lt_of_le passes), if_pos locked]

/-- The root logger without an appender calls itself under its own lock. -/
theorem not_returned_root {mgr : LogMgr} {level : LogLevel}
    (passes : (mgr.loggers root).l_loglevel ≤ level)
    (empty : (mgr.loggers root).l_appenders = []) (depth : Nat) (held after : List Nat)
    (calls : List LogCall) : mgr.log level depth held root ≠ .returned after calls := by
  intro returned
  cases depth with
  | zero => cases returned
  | succ depth =>
      by_cases locked : root ∈ held
      · rw [log_locked passes locked] at returned
        cases returned
      · rw [log_root passes empty locked] at returned
        cases depth with
        | zero => cases returned
        | succ depth =>
            rw [log_locked passes List.mem_cons_self] at returned
            cases returned

/-- A logger without an appender leaves it to the root logger. -/
theorem logs_of_root {mgr : LogMgr} {level : LogLevel} {logger : Nat}
    (nodup : (mgr.loggers logger).l_appenders.Nodup)
    (passes : (mgr.loggers logger).l_loglevel ≤ level)
    (empty : (mgr.loggers logger).l_appenders = []) {calls : List LogCall}
    (returned : mgr.log level 1 [logger] root = .returned [logger] calls) :
    mgr.Logs level logger := by
  refine ⟨2, .rootLogger :: calls, ?_, ?_⟩
  · rw [log_root passes empty List.not_mem_nil, returned]
    simp only [List.erase_cons_head]
  · intro _
    exact ⟨nodup, fun some => absurd empty some, fun _ => ⟨calls, rfl⟩⟩

theorem logs_iff {mgr : LogMgr} (nodup : ∀ logger, (mgr.loggers logger).l_appenders.Nodup)
    (level : LogLevel) (logger : Nat) : mgr.Logs level logger ↔ mgr.Heard level logger := by
  by_cases silent : level < (mgr.loggers logger).l_loglevel
  · apply iff_of_true _ (.inl silent)
    refine ⟨1, [], log_silent silent 0 [], ?_⟩
    intro passes
    exact absurd silent (Nat.not_lt_of_le passes)
  · have passes := Nat.le_of_not_lt silent
    by_cases empty : (mgr.loggers logger).l_appenders = []
    · by_cases deaf : level < (mgr.loggers root).l_loglevel
      · exact iff_of_true
          (logs_of_root (nodup logger) passes empty (log_silent deaf 0 [logger]))
          (.inr (.inr (.inl deaf)))
      · have root_passes := Nat.le_of_not_lt deaf
        by_cases root_empty : (mgr.loggers root).l_appenders = []
        · apply iff_of_false
          · rintro ⟨depth, calls, returned, _⟩
            cases depth with
            | zero => cases returned
            | succ depth =>
                rw [log_root passes empty List.not_mem_nil] at returned
                cases inner : mgr.log level depth [logger] root with
                | returned held calls =>
                    exact not_returned_root root_passes root_empty depth _ _ _ inner
                | unfinished | blocked =>
                    rw [inner] at returned
                    cases returned
          · rintro (early | some | early | some)
            · exact silent early
            · exact some empty
            · exact deaf early
            · exact some root_empty
        · have other : root ≠ logger := fun same => root_empty (same ▸ empty)
          exact iff_of_true
            (logs_of_root (nodup logger) passes empty
              (log_appenders root_passes root_empty (by simp [other]) 0))
            (.inr (.inr (.inr root_empty)))
    · apply iff_of_true _ (.inr (.inl empty))
      refine ⟨1, _, log_appenders passes empty List.not_mem_nil 0, ?_⟩
      intro _
      exact ⟨nodup logger, fun _ => rfl, fun none => absurd none empty⟩

end LogMgr

end Log

end FiberNet
