import Mathlib.Logic.Basic

/-! # Refinement of what is observed

Two systems perform the same actions and answer each with an outcome. An abstraction maps the
states of one to those of the other.
-/

namespace FiberNet

namespace Refinement

variable {State : Type u} {Abstract : Type v} {Action : Type w} {Outcome : Type x}

/-- The outcomes of a list of actions. -/
def outcomes (perform : Action → State → Outcome × State) : List Action → State → List Outcome
  | [], _ => []
  | action :: rest, state =>
      (perform action state).1 :: outcomes perform rest (perform action state).2

/-- The state behind a list of actions. -/
def after (perform : Action → State → Outcome × State) : List Action → State → State
  | [], state => state
  | action :: rest, state => after perform rest (perform action state).2

/-- Every action meets a condition on the state before it. -/
def Heeded (perform : Action → State → Outcome × State) (heeds : State → Action → Prop) :
    List Action → State → Prop
  | [], _ => True
  | action :: rest, state =>
      heeds state action ∧ Heeded perform heeds rest (perform action state).2

instance decidableHeeded (perform : Action → State → Outcome × State)
    (heeds : State → Action → Prop) [∀ state action, Decidable (heeds state action)] :
    ∀ actions state, Decidable (Heeded perform heeds actions state)
  | [], _ => isTrue trivial
  | action :: rest, state =>
      have := decidableHeeded perform heeds rest (perform action state).2
      inferInstanceAs (Decidable (heeds state action ∧
        Heeded perform heeds rest (perform action state).2))

/-- One action under the condition has the abstract outcome and leads to the abstract state. -/
structure Refines (perform : Action → State → Outcome × State)
    (specified : Action → Abstract → Outcome × Abstract) (Sound : State → Prop)
    (abstraction : State → Abstract) (heeds : Abstract → Action → Prop) : Prop where
  outcome : ∀ {state action}, Sound state → heeds (abstraction state) action →
    (perform action state).1 = (specified action (abstraction state)).1
  state : ∀ {state action}, Sound state → heeds (abstraction state) action →
    abstraction (perform action state).2 = (specified action (abstraction state)).2
  sound : ∀ {state action}, Sound state → heeds (abstraction state) action →
    Sound (perform action state).2

variable {perform : Action → State → Outcome × State}
  {specified : Action → Abstract → Outcome × Abstract} {Sound : State → Prop}
  {abstraction : State → Abstract} {heeds : Abstract → Action → Prop}

/-- A run that meets the condition has the abstract outcomes and ends in the abstract state. -/
theorem Refines.run (refines : Refines perform specified Sound abstraction heeds)
    {actions : List Action} {state : State} (sound : Sound state)
    (heeded : Heeded specified heeds actions (abstraction state)) :
    outcomes perform actions state = outcomes specified actions (abstraction state) ∧
      abstraction (after perform actions state) =
        after specified actions (abstraction state) ∧
      Sound (after perform actions state) := by
  induction actions generalizing state with
  | nil => exact ⟨rfl, rfl, sound⟩
  | cons action rest induction =>
      rcases heeded with ⟨heed, heeded⟩
      have moved := refines.state sound heed
      rw [← moved] at heeded
      rcases induction (refines.sound sound heed) heeded with ⟨later, reached, kept⟩
      rw [moved] at later reached
      refine ⟨?_, reached, kept⟩
      rw [outcomes, outcomes, refines.outcome sound heed, later]

end Refinement

end FiberNet
