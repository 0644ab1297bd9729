import Mathlib.Data.Option.Basic

/-! # Loops

A loop is the function of one pass. A loop that goes on forever has no result with
any number of passes.
-/

namespace FiberNet

inductive Pass (State : Type u) (Result : Type v)
  | done (result : Result)
  | again (next : State)

/-- What one pass does with a state. -/
def Loop (State : Type u) (Result : Type v) := State → Pass State Result

namespace Loop

variable {State : Type u} {Result : Type v} {loop : Loop State Result}

/-- The result, if the loop ends within the given number of passes. -/
def run (loop : Loop State Result) : Nat → State → Option Result
  | 0, _ => none
  | passes + 1, state =>
      match loop state with
      | .done result => some result
      | .again next => loop.run passes next

/-- The loop ends with the result. -/
def Returns (loop : Loop State Result) (state : State) (result : Result) : Prop :=
  ∃ passes, loop.run passes state = some result

theorem returns_done {state : State} {result other : Result}
    (pass : loop state = .done result) : loop.Returns state other ↔ other = result := by
  constructor
  · rintro ⟨passes, ran⟩
    cases passes with
    | zero => cases ran
    | succ passes =>
        rw [run, pass] at ran
        exact (Option.some.inj ran).symm
  · intro same
    refine ⟨1, ?_⟩
    rw [run, pass, same]

theorem returns_again {state next : State} {result : Result}
    (pass : loop state = .again next) :
    loop.Returns state result ↔ loop.Returns next result := by
  constructor
  · rintro ⟨passes, ran⟩
    cases passes with
    | zero => cases ran
    | succ passes =>
        rw [run, pass] at ran
        exact ⟨passes, ran⟩
  · rintro ⟨passes, ran⟩
    refine ⟨passes + 1, ?_⟩
    rw [run, pass]
    exact ran

/-- A pass that changes nothing is repeated forever. -/
theorem not_returns_of_again {state : State} (pass : loop state = .again state)
    (result : Result) : ¬loop.Returns state result := by
  rintro ⟨passes, ran⟩
  induction passes with
  | zero => cases ran
  | succ passes induction =>
      rw [run, pass] at ran
      exact induction ran

end Loop

end FiberNet
