import Mathlib.Logic.Basic

/-! # State machines driven by actions

A `Machine` is an executable partial step function. The choices of the
environment (which thread moves next, which system call fails) are part of the
action, so one function describes every interleaving.
-/

namespace FiberNet

structure Machine (State : Type u) (Action : Type v) where
  initial : State → Prop
  step : State → Action → Option State

namespace Machine

variable {State : Type u} {Action : Type v} {Result : Type w}

/-- The states of the runs all of whose steps are `allowed`. The condition sees
the state before the step. -/
inductive ReachableWhere (machine : Machine State Action)
    (allowed : State → Action → Prop) : State → Prop
  | initial {state} : machine.initial state → ReachableWhere machine allowed state
  | step {state action next} :
      ReachableWhere machine allowed state →
      allowed state action →
      machine.step state action = some next →
      ReachableWhere machine allowed next

/-- The states of all runs. -/
@[reducible] def Reachable (machine : Machine State Action) : State → Prop :=
  machine.ReachableWhere fun _ _ => True

variable {machine : Machine State Action} {allowed : State → Action → Prop}

theorem Reachable.next {state next : State} {action : Action}
    (reachable : machine.Reachable state)
    (taken : machine.step state action = some next) : machine.Reachable next :=
  .step reachable trivial taken

theorem ReachableWhere.reachable {state : State}
    (reachable : machine.ReachableWhere allowed state) :
    machine.Reachable state := by
  induction reachable with
  | initial starts => exact .initial starts
  | step _ _ taken induction => exact induction.next taken

/-- The induction over runs: what holds at the start and is kept by every
allowed step holds in every state reached. The step obligation may use that the
state before the step was itself reached. -/
theorem ReachableWhere.invariant {Holds : State → Prop}
    (starts : ∀ state, machine.initial state → Holds state)
    (kept : ∀ state action next, machine.ReachableWhere allowed state →
      Holds state → allowed state action →
      machine.step state action = some next → Holds next)
    {state : State} (reachable : machine.ReachableWhere allowed state) :
    Holds state := by
  induction reachable with
  | initial start => exact starts _ start
  | step before permitted taken induction =>
      exact kept _ _ _ before induction permitted taken

/-- Perform a list of actions, failing at the first one that is not enabled. -/
def run (machine : Machine State Action) (state : State) :
    List Action → Option State
  | [] => some state
  | action :: rest => (machine.step state action).bind (machine.run · rest)

/-- Every step of the list of actions meets a condition on the state before it. -/
def Meets (machine : Machine State Action) (condition : State → Action → Prop) :
    State → List Action → Prop
  | _, [] => True
  | state, action :: rest =>
      condition state action ∧
        ∀ next, machine.step state action = some next → machine.Meets condition next rest

/-- Conditions that say the same of every step from a sound state say the same of every run
from one. -/
theorem meets_congr {machine : Machine State Action} {condition other : State → Action → Prop}
    {Sound : State → Prop}
    (agree : ∀ {state action}, Sound state → (condition state action ↔ other state action))
    (kept : ∀ {state action next}, Sound state → other state action →
      machine.step state action = some next → Sound next) :
    ∀ {state : State} (actions : List Action), Sound state →
      (machine.Meets condition state actions ↔ machine.Meets other state actions) := by
  intro state actions
  induction actions generalizing state with
  | nil => intro _; rfl
  | cons action rest induction =>
      intro sound
      rw [Meets, Meets, agree sound]
      apply and_congr_right
      intro met
      apply forall_congr'
      intro next
      apply imp_congr_right
      intro taken
      exact induction (kept sound met taken)

/-- What exactly the steps that meet a condition keep holds at the end of exactly the runs
all of whose steps meet it. -/
theorem meets_iff {machine : Machine State Action} {condition : State → Action → Prop}
    {Sound Clean : State → Prop}
    (kept : ∀ {state action next}, Sound state → machine.step state action = some next →
      Sound next ∧ (Clean next ↔ Clean state ∧ condition state action)) :
    ∀ {state final : State} (actions : List Action), Sound state →
      machine.run state actions = some final →
      Sound final ∧ (Clean final ↔ Clean state ∧ machine.Meets condition state actions)
  | _, _, [], sound, executed => by
      cases executed
      exact ⟨sound, (and_iff_left trivial).symm⟩
  | state, final, action :: rest, sound, executed => by
      rcases Option.bind_eq_some_iff.mp executed with ⟨next, taken, later⟩
      rcases kept sound taken with ⟨next_sound, clean⟩
      rcases meets_iff kept rest next_sound later with ⟨final_sound, whole⟩
      refine ⟨final_sound, ?_⟩
      rw [whole, clean, and_assoc]
      simp [Meets, taken]

/-- A property holds in every state of the run of the list of actions. -/
def Always (machine : Machine State Action) (holds : State → Prop) :
    State → List Action → Prop
  | state, [] => holds state
  | state, action :: rest =>
      holds state ∧ ∀ next, machine.step state action = some next → machine.Always holds next rest

/-- What the steps from its states keep exactly under a condition holds in every state of
exactly the runs all of whose steps meet the condition. -/
theorem always_iff {machine : Machine State Action} {condition : State → Action → Prop}
    {Sound Holds : State → Prop}
    (kept : ∀ {state action next}, Sound state → Holds state →
      machine.step state action = some next →
      Sound next ∧ (Holds next ↔ condition state action)) :
    ∀ {state final : State} (actions : List Action), Sound state → Holds state →
      machine.run state actions = some final →
      (machine.Always Holds state actions ↔ machine.Meets condition state actions)
  | _, _, [], _, holds, _ => iff_of_true holds trivial
  | state, final, action :: rest, sound, holds, executed => by
      rcases Option.bind_eq_some_iff.mp executed with ⟨next, taken, later⟩
      rcases kept sound holds taken with ⟨next_sound, precise⟩
      simp only [Always, Meets, taken, Option.some.injEq, forall_eq', holds, true_and]
      by_cases met : condition state action
      · rw [always_iff kept rest next_sound (precise.mpr met) later]
        exact (and_iff_right met).symm
      · apply iff_of_false
        · intro always
          apply met
          apply precise.mp
          cases rest with
          | nil => exact always
          | cons _ _ => exact always.1
        · exact fun both => met both.1

instance decidableMeets (machine : Machine State Action)
    (condition : State → Action → Prop) [∀ state action, Decidable (condition state action)] :
    ∀ state actions, Decidable (machine.Meets condition state actions)
  | _, [] => isTrue trivial
  | state, action :: rest =>
      match taken : machine.step state action with
      | none => decidable_of_iff (condition state action) (by simp [Meets, taken])
      | some next =>
          have := decidableMeets machine condition next rest
          decidable_of_iff (condition state action ∧ machine.Meets condition next rest)
            (by simp [Meets, taken])

theorem Reachable.run {state final : State} {actions : List Action}
    (reachable : machine.Reachable state)
    (executed : machine.run state actions = some final) :
    machine.Reachable final := by
  induction actions generalizing state with
  | nil =>
      cases executed
      exact reachable
  | cons action rest induction =>
      rcases Option.bind_eq_some_iff.mp executed with ⟨next, taken, later⟩
      exact induction (reachable.next taken) later

/-- A run from an initial state whose final state passes an executable test
exhibits a reachable state with the tested property. -/
theorem exists_reachable_of_run (machine : Machine State Action) {start : State}
    (starts : machine.initial start) (actions : List Action) (test : State → Bool)
    (passes : (machine.run start actions).any test = true) :
    ∃ state, machine.Reachable state ∧ test state = true := by
  cases executed : machine.run start actions with
  | none => simp [executed] at passes
  | some final =>
      simp only [executed, Option.any_some] at passes
      exact ⟨final, Reachable.run (.initial starts) executed, passes⟩

section

variable (machine : Machine State Action) (allowed : State → Action → Prop)
  [∀ state action, Decidable (allowed state action)]

/-- The machine without the steps that are not `allowed`. -/
def restrict : Machine State Action where
  initial := machine.initial
  step state action := if allowed state action then machine.step state action else none

theorem reachableWhere_of_restrict {state : State}
    (reachable : (machine.restrict allowed).Reachable state) :
    machine.ReachableWhere allowed state := by
  induction reachable with
  | initial starts => exact .initial starts
  | step _ _ taken induction =>
      simp only [restrict, Option.ite_none_right_eq_some] at taken
      exact .step induction taken.1 taken.2

theorem exists_reachableWhere_of_run {start : State} (starts : machine.initial start)
    (actions : List Action) (test : State → Bool)
    (passes : ((machine.restrict allowed).run start actions).any test = true) :
    ∃ state, machine.ReachableWhere allowed state ∧ test state = true := by
  rcases exists_reachable_of_run (machine.restrict allowed) starts actions test passes with
    ⟨state, reachable, tested⟩
  exact ⟨state, machine.reachableWhere_of_restrict allowed reachable, tested⟩

end

/-- Perform actions until a state has a result, and leave the others. -/
def runUntil (machine : Machine State Action) (result : State → Option Result) :
    State → List Action → Option (Result × List Action)
  | state, [] => (result state).map fun value => (value, [])
  | state, action :: rest =>
      match result state with
      | some value => some (value, action :: rest)
      | none => (machine.step state action).bind (machine.runUntil result · rest)

theorem runUntil_result {result : State → Option Result} {state : State} {value : Result}
    (reached : result state = some value) (actions : List Action) :
    machine.runUntil result state actions = some (value, actions) := by
  cases actions <;> simp [runUntil, reached]

theorem runUntil_step {result : State → Option Result} {state next : State} {action : Action}
    (waiting : result state = none) (taken : machine.step state action = some next)
    (actions : List Action) :
    machine.runUntil result state (action :: actions) =
      machine.runUntil result next actions := by
  rw [runUntil, waiting, taken]
  rfl

section

variable {Ghost : Type w} (start : Ghost) (record : Ghost → State → Action → Ghost)

/-- The machine beside a record of its run, which no step depends on. -/
def track (machine : Machine State Action) : Machine (State × Ghost) Action where
  initial state := machine.initial state.1 ∧ state.2 = start
  step state action :=
    (machine.step state.1 action).map fun next => (next, record state.2 state.1 action)

end

end Machine

end FiberNet
