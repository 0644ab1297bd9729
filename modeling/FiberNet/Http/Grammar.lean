import FiberNet.Foundation.Scanner

/-! # What the two generated parsers share

The classes of bytes of the grammars, and the positions that the actions keep.
Bytes are given by their codes, as in the generated code.
-/

namespace FiberNet

namespace Http

section

variable {Action : Type u}

@[reducible] def on (bytes : List (Nat × Nat)) (actions : List Action) (target : Nat) :
    Edge Action :=
  ⟨bytes, false, actions, target⟩

/-- An edge of the bytes that are allowed only when `uri_relaxed` is set. -/
@[reducible] def relaxed (bytes : List (Nat × Nat)) (actions : List Action) (target : Nat) :
    Edge Action :=
  ⟨bytes, true, actions, target⟩

end

@[reducible] def byte (code : Nat) : List (Nat × Nat) := [(code, code)]

@[reducible] def range (first last : Nat) : List (Nat × Nat) := [(first, last)]

/-- A letter, given by its upper case. -/
@[reducible] def letter (code : Nat) : List (Nat × Nat) :=
  [(code, code), (code + 32, code + 32)]

def digit : List (Nat × Nat) := [(48, 57)]

def xdigit : List (Nat × Nat) := [(48, 57), (65, 70), (97, 102)]

def alpha : List (Nat × Nat) := [(65, 90), (97, 122)]

def space : List (Nat × Nat) := [(9, 13), (32, 32)]

def token : List (Nat × Nat) :=
  [(33, 33), (35, 39), (42, 43), (45, 46), (48, 57), (65, 90), (94, 122), (124, 124),
    (126, 126)]

/-- All bytes but the line feed. -/
def lineByte : List (Nat × Nat) := [(0, 9), (11, 255)]

def anyByte : List (Nat × Nat) := [(0, 255)]

def methodByte : List (Nat × Nat) := [(48, 57), (65, 90)]

/-- The bytes of a field name in a request. The grammar writes `(0 - 31)`, which is
the difference of the two bytes, so control characters are among them. -/
def fieldByte : List (Nat × Nat) := [(1, 8), (10, 31)] ++ token

/-- The bytes of a field value in a request. -/
def valueByte : List (Nat × Nat) := [(1, 9), (11, 12), (14, 126), (128, 255)]

def pathByte : List (Nat × Nat) :=
  [(33, 33), (36, 36), (38, 59), (61, 61), (64, 90), (95, 95), (97, 122), (126, 126),
    (128, 255)]

def queryByte : List (Nat × Nat) :=
  [(33, 33), (36, 36), (38, 59), (61, 61), (63, 90), (95, 95), (97, 122), (124, 124),
    (126, 126), (128, 255)]

def segmentByte : List (Nat × Nat) :=
  [(33, 33), (36, 36), (38, 46), (48, 57), (59, 59), (61, 61), (64, 90), (95, 95), (97, 122),
    (126, 126)]

def regName : List (Nat × Nat) :=
  [(33, 33), (36, 36), (38, 46), (48, 57), (59, 59), (61, 61), (65, 90), (95, 95), (97, 122),
    (126, 126)]

def userInfo : List (Nat × Nat) :=
  [(33, 33), (36, 36), (38, 46), (48, 59), (61, 61), (65, 90), (95, 95), (97, 122),
    (126, 126)]

def tagByte : List (Nat × Nat) := [(45, 46), (48, 57), (65, 90), (97, 122)]

/-- `^`, `{` and `}`. -/
def relaxedDelims : List (Nat × Nat) := [(94, 94), (123, 123), (125, 125)]

/-- The marks of `http_parser` and `httpclient_parser`, as offsets into the buffer. -/
structure Marks where
  mark : Nat
  fieldStart : Nat
  fieldLen : Nat
  /-- Only `http_parser` has this one. -/
  queryStart : Nat
  deriving DecidableEq

inductive MarkEffect
  | none
  | mark
  | startField
  | writeField
  | startQuery
  deriving DecidableEq

def Marks.after (marks : Marks) (position : Nat) : MarkEffect → Marks
  | .none => marks
  | .mark => { marks with mark := position }
  | .startField => { marks with fieldStart := position }
  | .writeField => { marks with fieldLen := position - marks.fieldStart }
  | .startQuery => { marks with queryStart := position }

/-- An action as it is performed: where, and with which marks. -/
structure Occurrence (Action : Type u) where
  action : Action
  position : Nat
  marks : Marks

section

variable {Action : Type u} (effect : Action → MarkEffect)

def occurrences (marks : Marks) : List (Nat × Action) → List (Occurrence Action)
  | [] => []
  | (position, action) :: events =>
      ⟨action, position, marks⟩ :: occurrences (marks.after position (effect action)) events

def marksAfter (marks : Marks) : List (Nat × Action) → Marks
  | [] => marks
  | (position, action) :: events =>
      marksAfter (marks.after position (effect action)) events

theorem occurrences_append (later : List (Nat × Action)) :
    ∀ (events : List (Nat × Action)) (marks : Marks),
      occurrences effect marks (events ++ later) =
        occurrences effect marks events ++
          occurrences effect (marksAfter effect marks events) later
  | [], _ => rfl
  | (position, action) :: events, marks => by
      rw [List.cons_append, occurrences, occurrences, marksAfter, List.cons_append,
        occurrences_append later events]

end

/-- The bytes of a buffer between two offsets. -/
def slice (data : List UInt8) (first last : Nat) : List UInt8 :=
  (data.take last).drop first

end Http

end FiberNet
