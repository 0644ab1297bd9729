import FiberNet.Http.Message
import Mathlib.Data.Int.Init

/-! # Log events

The levels of the log, the data of one event and the items that a formatter is made of.
-/

namespace FiberNet

namespace Log

/-- An enumeration without a fixed type, which is also given numbers that have no name. -/
@[reducible] def LogLevel := Nat

namespace LogLevel

def debug : LogLevel := 1

def info : LogLevel := 2

def warn : LogLevel := 3

def error : LogLevel := 4

def fatal : LogLevel := 5

/-- The rows of the macro in both conversions. -/
def names : List (LogLevel × List UInt8) := [
  (debug, Http.text "DEBUG"), (info, Http.text "INFO"), (warn, Http.text "WARN"),
  (error, Http.text "ERROR"), (fatal, Http.text "FATAL")]

def toString (level : LogLevel) : List UInt8 :=
  (names.lookup level).getD (Http.text "UNKNOWN")

def fromString (level : List UInt8) : LogLevel :=
  ((names.find? fun entry => entry.2 == level).map (·.1)).getD debug

theorem fromString_toString {level : LogLevel} (least : debug ≤ level)
    (most : level ≤ fatal) : fromString (toString level) = level := by
  have every : ∀ number : Nat, number ≤ 5 → 1 ≤ number →
      fromString (toString number) = number := by decide
  exact every level most least

end LogLevel

/-- What the items read of an event. -/
structure LogEvent where
  l_level : LogLevel
  u_eplapse : Int64
  u_times : Int64
  p_pid : Int32
  p_tid : Int32
  u_cid : UInt32
  u_lines : UInt32
  s_file : List UInt8
  s_func : List UInt8
  s_logname : List UInt8
  m_threadName : List UInt8
  /-- The text of the stream. -/
  getMsg : List UInt8

/-- A number as a stream prints it. -/
def signed (number : Int) : List UInt8 :=
  if number < 0 then 45 :: Http.decimal number.natAbs else Http.decimal number.natAbs

inductive FormatterItem
  | message
  | regular (s_str : List UInt8)
  | level
  | date (s_fmt : List UInt8)
  | thread
  | threadName
  | process
  | elapse
  | coroutine
  | function
  | file
  | line
  | tab
  | newLine
  | name
  | backTrace
  deriving DecidableEq

/-- The bytes that the item writes. The text of a date is what `strftime` leaves in the
buffer for the local time of the event. -/
def FormatterItem.rendering (date : List UInt8 → Int64 → List UInt8) (event : LogEvent) :
    FormatterItem → List UInt8
  | .message => event.getMsg
  | .regular s_str => s_str
  | .level => LogLevel.toString event.l_level
  | .date s_fmt => date s_fmt event.u_times
  | .thread => signed event.p_tid.toInt
  | .threadName => event.m_threadName
  | .process => signed event.p_pid.toInt
  | .elapse => signed event.u_eplapse.toInt
  | .coroutine => Http.decimal event.u_cid.toNat
  | .function => event.s_func
  | .file => event.s_file
  | .line => Http.decimal event.u_lines.toNat
  | .tab => [9]
  | .newLine => [10]
  | .name => event.s_logname
  -- The body of this one is commented out.
  | .backTrace => []

def FormatterItem.format (date : List UInt8 → Int64 → List UInt8) (ss : List UInt8)
    (event : LogEvent) (item : FormatterItem) : List UInt8 :=
  ss ++ item.rendering date event

end Log

end FiberNet
