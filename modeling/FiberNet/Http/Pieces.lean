import FiberNet.Http.Grammar

/-! # Messages piece by piece

A message that was printed is a list of pieces. What the parser makes of it is put together
from what it does with each piece behind those before it.
-/

namespace FiberNet

namespace Http

/-- A parser that starts on a buffer: its automaton, its actions and where they start. -/
structure Execution (Action : Type u) (Parser : Type v) where
  scanner : Scanner Action
  effect : Action → MarkEffect
  perform : Parser → Occurrence Action → Option Parser
  state : Nat
  marks : Marks
  parser : Parser

namespace Execution

variable {Action : Type u} {Parser : Type v}

/-- Behind `bytes` the automaton is in `state`, and the actions have led to `marks` and
`parser`. -/
def Consumed (execution : Execution Action Parser) (bytes : List UInt8) (state : Nat)
    (marks : Marks) (parser : Parser) : Prop :=
  ∃ events, execution.scanner.Walks execution.state 0 bytes state events ∧
    (occurrences execution.effect execution.marks events).foldlM execution.perform
      execution.parser = some parser ∧
    marksAfter execution.effect execution.marks events = marks

variable {execution : Execution Action Parser} {before : List UInt8} {state target : Nat}
  {marks : Marks} {parser next : Parser}

theorem consumed_nil (execution : Execution Action Parser) :
    execution.Consumed [] execution.state execution.marks execution.parser :=
  ⟨[], Scanner.walks_nil _ _, rfl, rfl⟩

theorem marksAfter_append (effect : Action → MarkEffect) (later : List (Nat × Action)) :
    ∀ (events : List (Nat × Action)) (marks : Marks),
      marksAfter effect marks (events ++ later) =
        marksAfter effect (marksAfter effect marks events) later
  | [], _ => rfl
  | (_, _) :: events, _ => marksAfter_append effect later events _

/-- The next piece. -/
theorem Consumed.append {bytes : List UInt8} {events : List (Nat × Action)}
    (consumed : execution.Consumed before state marks parser)
    (walks : execution.scanner.Walks state before.length bytes target events)
    (performed : (occurrences execution.effect marks events).foldlM execution.perform parser =
      some next) :
    execution.Consumed (before ++ bytes) target (marksAfter execution.effect marks events)
      next := by
  rcases consumed with ⟨earlier, walked, done, rfl⟩
  refine ⟨earlier ++ events, ?_, ?_, marksAfter_append _ _ _ _⟩
  · apply walked.append
    rwa [Nat.zero_add]
  · rw [occurrences_append, List.foldlM_append, done]
    exact performed

/-- A piece whose actions change no more than the marks. -/
theorem Consumed.silent {bytes : List UInt8}
    (consumed : execution.Consumed before state marks parser)
    (walks : execution.scanner.Walks state before.length bytes target []) :
    execution.Consumed (before ++ bytes) target marks parser :=
  consumed.append walks rfl

/-- The byte at which the scan ends, whatever lies behind it. -/
theorem Consumed.stop {byte : UInt8} {actions : List Action}
    (consumed : execution.Consumed before state marks parser)
    (taken : execution.scanner.move state byte = some (actions, target))
    (stopped : actions.any execution.scanner.stops = true)
    (performed : (occurrences execution.effect marks
      (actions.map fun action => (before.length, action))).foldlM execution.perform parser =
        some next) (behind : List UInt8) :
    ∃ events, execution.scanner.scan execution.state 0 (before ++ byte :: behind) =
        ⟨target, before.length + 1, events, false⟩ ∧
      (occurrences execution.effect execution.marks events).foldlM execution.perform
        execution.parser = some next ∧
      marksAfter execution.effect execution.marks events =
        marksAfter execution.effect marks
          (actions.map fun action => (before.length, action)) := by
  rcases consumed with ⟨earlier, walked, done, rfl⟩
  refine ⟨earlier ++ actions.map fun action => (before.length, action), ?_, ?_,
    marksAfter_append _ _ _ _⟩
  · rw [walked.scan_append, Nat.zero_add, Scanner.scan_stop taken stopped]
    rfl
  · rw [occurrences_append, List.foldlM_append, done]
    exact performed

theorem Consumed.scan (consumed : execution.Consumed before state marks parser)
    (more : List UInt8) :
    (execution.scanner.scan execution.state 0 (before ++ more)).state =
      (execution.scanner.scan state before.length more).state := by
  rcases consumed with ⟨events, walks, _, _⟩
  rw [walks.scan_append, Nat.zero_add]
  rfl

end Execution

/-- A token of the buffer. -/
theorem slice_piece {data before piece behind : List UInt8}
    (split : data = before ++ piece ++ behind) :
    slice data before.length (before ++ piece).length = piece := by
  unfold slice
  rw [split, List.take_left, List.drop_left]

end Http

end FiberNet
