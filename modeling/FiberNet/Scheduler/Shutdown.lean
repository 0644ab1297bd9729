import FiberNet.Scheduler.Scheduler
import Mathlib.Data.Fintype.Card

/-! # Shutdown counts the Processers out

`Processer::run` has two exits. The one after the wait takes its Processer off
`m_currentThread`, the one before it does not.
-/

namespace FiberNet

/-- `run()` has returned. -/
def Position.isReturned {Fiber : Type} : Position Fiber → Bool
  | .returned => true
  | _ => false

namespace Scheduler

variable {n : Nat} {Fiber Producer : Type}

/-- The Processers still in `run()`. -/
def live (scheduler : Scheduler n Fiber Producer) : Finset (Fin n) :=
  Finset.univ.filter fun p => (scheduler.position p).isReturned = false

variable {scheduler next : Scheduler n Fiber Producer}

theorem mem_live (p : Fin n) :
    p ∈ scheduler.live ↔ (scheduler.position p).isReturned = false := by
  simp [live]

/-- What a step that is no exit leaves alone. -/
structure Continues (scheduler next : Scheduler n Fiber Producer) : Prop where
  currentThread : next.currentThread = scheduler.currentThread
  returned : ∀ p, (next.position p).isReturned = (scheduler.position p).isReturned

theorem Continues.of_position
    (currentThread : next.currentThread = scheduler.currentThread)
    (position : next.position = scheduler.position) : Continues scheduler next :=
  ⟨currentThread, by simp [position]⟩

theorem Continues.of_goTo {p : Fin n} {position : Position Fiber}
    (currentThread : next.currentThread = scheduler.currentThread)
    (moved : next.position = Function.update scheduler.position p position)
    (before : (scheduler.position p).isReturned = false)
    (after : position.isReturned = false) : Continues scheduler next where
  currentThread := currentThread
  returned := by
    intro q
    rw [moved, Function.update_apply]
    split
    · subst q
      rw [before, after]
    · rfl

theorem Continues.live (continues : Continues scheduler next) :
    next.live = scheduler.live := by
  ext q
  rw [mem_live, mem_live, continues.returned q]

theorem live_returned {p : Fin n} (before : (scheduler.position p).isReturned = false)
    (position : next.position = Function.update scheduler.position p .returned) :
    next.live.card + 1 = scheduler.live.card := by
  have erased : next.live = scheduler.live.erase p := by
    ext q
    simp only [Finset.mem_erase, mem_live, position, Function.update_apply]
    split
    · simp [*, Position.isReturned]
    · simp [*]
  rw [erased]
  exact Finset.card_erase_add_one ((mem_live p).mpr before)

variable [DecidableEq Fiber]

theorem run_continues {p : Fin n} (taken : scheduler.run p = some next) :
    Continues scheduler next ∨ ∃ waited, scheduler.position p = .leave waited := by
  cases position : scheduler.position p with
  | leave waited => exact .inr ⟨waited, rfl⟩
  | balance | returned => simp [run, position] at taken
  | subtract ended =>
      left
      simp only [run, position] at taken
      cases taken
      cases ended <;> exact .of_goTo rfl rfl (by rw [position]; rfl) rfl
  | inside fiber activity =>
      left
      cases activity <;> simp only [run, position] at taken <;> cases taken <;>
        exact .of_goTo rfl rfl (by rw [position]; rfl) rfl
  | _ =>
      left
      simp only [run, position] at taken
      repeat' split at taken
      all_goals
        cases taken <;>
          exact .of_goTo rfl rfl (by rw [position]; rfl) rfl

/-- Every other action leaves the count and the returned Processers alone. -/
theorem step_continues [DecidableEq Producer] {action : SchedulerAction n Fiber Producer}
    (taken : scheduler.step action = some next) :
    Continues scheduler next ∨ ∃ p waited, action = .run p ∧
      scheduler.position p = .leave waited := by
  cases action with
  | run p =>
      rcases run_continues taken with continues | ⟨waited, leaving⟩
      · exact .inl continues
      · exact .inr ⟨p, waited, rfl, leaving⟩
  | balance p maxPrc =>
      left
      simp only [step, balance] at taken
      split at taken
      · rename_i position
        split at taken <;> cases taken <;> exact .of_goTo rfl rfl (by rw [position]; rfl) rfl
      · cases taken
  | interrupt p =>
      left
      simp only [step, interrupt] at taken
      split at taken <;> cases taken
      rename_i position
      exact .of_goTo rfl rfl (by rw [position]; rfl) rfl
  | publish p source =>
      left
      simp only [step, publish] at taken
      split at taken <;> cases taken
      rename_i position
      exact .of_goTo rfl rfl (by rw [position]; rfl) rfl
  | yieldToReady p =>
      left
      simp only [step, yieldToReady] at taken
      split at taken <;> cases taken
      rename_i position
      exact .of_goTo rfl rfl (by rw [position]; rfl) rfl
  | finish p thrown =>
      left
      simp only [step, finish] at taken
      split at taken <;> cases taken
      rename_i position
      exact .of_goTo rfl rfl (by rw [position]; rfl) rfl
  | addCallback producer fiber p =>
      simp only [step, addCallback, Option.ite_none_right_eq_some, Option.some.injEq] at taken
      rcases taken with ⟨_, rfl⟩
      exact .inl (.of_position rfl rfl)
  | addNew producer fiber p =>
      simp only [step, addNew, Option.ite_none_right_eq_some, Option.some.injEq] at taken
      rcases taken with ⟨_, rfl⟩
      exact .inl (.of_position rfl rfl)
  | register fiber source =>
      simp only [step, register, Option.ite_none_right_eq_some, Option.some.injEq] at taken
      rcases taken with ⟨_, rfl⟩
      exact .inl (.of_position rfl rfl)
  | withdraw fiber =>
      simp only [step, withdraw] at taken
      split at taken <;> cases taken
      exact .inl (.of_position rfl rfl)
  | wake producer fiber p =>
      simp only [step, wake] at taken
      split at taken <;> cases taken
      exact .inl (.of_position rfl rfl)
  | proceed producer =>
      simp only [step, proceed] at taken
      split at taken <;> cases taken <;> exact .inl (.of_position rfl rfl)
  | dispatch =>
      left
      apply Continues.of_position _ (sameFibers_dispatch taken).position
      simp only [step, dispatch] at taken
      repeat' split at taken
      all_goals cases taken <;> rfl
  | stop =>
      left
      apply Continues.of_position _ (sameFibers_stop taken).position
      simp only [step, stop] at taken
      repeat' split at taken
      all_goals cases taken <;> rfl
  | endReactor =>
      simp only [step, endReactor, Option.ite_none_right_eq_some, Option.some.injEq] at taken
      rcases taken with ⟨_, rfl⟩
      exact .inl (.of_position rfl rfl)

/-- The count is the number of Processers still in `run()`. -/
def CountsOut (scheduler : Scheduler n Fiber Producer) : Prop :=
  scheduler.currentThread = scheduler.live.card

/-- The exit after the wait. -/
theorem leave_waited {p : Fin n} (leaving : scheduler.position p = .leave true)
    (taken : scheduler.run p = some next) :
    next.currentThread = scheduler.currentThread - 1 ∧
      next.position = Function.update scheduler.position p .returned := by
  simp only [run, leaving, ite_true, Option.some.injEq] at taken
  subst next
  exact ⟨rfl, rfl⟩

/-- No Processer leaves by the exit before the wait. -/
def LeavesWaited (scheduler : Scheduler n Fiber Producer) :
    SchedulerAction n Fiber Producer → Prop
  | .run p => scheduler.position p ≠ .leave false
  | _ => True

instance (scheduler : Scheduler n Fiber Producer) :
    ∀ action, Decidable (scheduler.LeavesWaited action)
  | .run p => inferInstanceAs (Decidable (scheduler.position p ≠ .leave false))
  | .balance .. | .interrupt .. | .publish .. | .yieldToReady .. | .finish ..
  | .addCallback .. | .addNew .. | .register .. | .withdraw .. | .wake .. | .proceed ..
  | .dispatch | .stop | .endReactor => inferInstanceAs (Decidable True)

variable [DecidableEq Producer]

theorem LeavesWaited.cases {action : SchedulerAction n Fiber Producer}
    (allowed : scheduler.LeavesWaited action)
    (taken : scheduler.step action = some next) :
    Continues scheduler next ∨ ∃ p, action = .run p ∧ scheduler.position p = .leave true := by
  rcases step_continues taken with continues | ⟨p, waited, rfl, leaving⟩
  · exact .inl continues
  · right
    cases waited with
    | false => exact absurd leaving allowed
    | true => exact ⟨p, rfl, leaving⟩

theorem CountsOut.step (counts : scheduler.CountsOut)
    {action : SchedulerAction n Fiber Producer} (allowed : scheduler.LeavesWaited action)
    (taken : scheduler.step action = some next) : next.CountsOut := by
  unfold CountsOut at counts ⊢
  rcases allowed.cases taken with continues | ⟨p, rfl, leaving⟩
  · rw [continues.currentThread, continues.live, counts]
  · rcases leave_waited leaving taken with ⟨currentThread, position⟩
    have card := live_returned (by rw [leaving]; rfl) position
    omega

omit [DecidableEq Fiber] [DecidableEq Producer] in
theorem countsOut_start : (start n Fiber Producer).CountsOut := by
  simp [CountsOut, live, start, Position.isReturned]

theorem countsOut_of_reachable
    (reachable : (machine n Fiber Producer).ReachableWhere LeavesWaited scheduler) :
    scheduler.CountsOut := by
  apply reachable.invariant
  · intro scheduler starts
    rw [starts]
    exact countsOut_start
  · intro scheduler action next _ counts allowed taken
    exact counts.step allowed taken

/-! ## The loop of the dispatcher -/

/-- The dispatcher ends by its own steps alone. -/
def DispatcherEnds (scheduler : Scheduler n Fiber Producer) : Prop :=
  ∃ steps final, (machine n Fiber Producer).run scheduler
    (List.replicate steps .dispatch) = some final ∧ final.dispatcher = .ended

theorem DispatcherEnds.of_next (next : Scheduler n Fiber Producer)
    (taken : scheduler.dispatch = some next) (ends : next.DispatcherEnds) :
    scheduler.DispatcherEnds := by
  rcases ends with ⟨steps, final, executed, ended⟩
  refine ⟨steps + 1, final, ?_, ended⟩
  simpa [List.replicate_succ, Machine.run, machine, step, taken] using executed

theorem dispatcherEnds_ended (ended : scheduler.dispatcher = .ended) :
    scheduler.DispatcherEnds :=
  ⟨0, scheduler, rfl, ended⟩

theorem dispatcherEnds_check (none : scheduler.currentThread ≤ 0)
    (checking : scheduler.dispatcher = .check) : scheduler.DispatcherEnds := by
  have done : ¬scheduler.currentThread > 0 := by omega
  apply DispatcherEnds.of_next { scheduler with dispatcher := .ended }
  · simp [dispatch, checking, done]
  · exact dispatcherEnds_ended rfl

theorem dispatcherEnds_sleep (none : scheduler.currentThread ≤ 0)
    (sleeping : scheduler.dispatcher = .sleep) : scheduler.DispatcherEnds := by
  apply DispatcherEnds.of_next { scheduler with dispatcher := .check }
  · simp [dispatch, sleeping]
  · exact dispatcherEnds_check none rfl

/-- By induction on the Processers still to be notified in this round. -/
theorem dispatcherEnds_notify (left : Nat) : ∀ (scheduler : Scheduler n Fiber Producer)
    (index : Nat), scheduler.currentThread ≤ 0 → scheduler.dispatcher = .notify index →
    n ≤ index + left → scheduler.DispatcherEnds := by
  induction left with
  | zero =>
      intro scheduler index none notifying last
      have outside : ¬index < n := by omega
      apply DispatcherEnds.of_next { scheduler with dispatcher := .sleep }
      · simp [dispatch, notifying, outside]
      · exact dispatcherEnds_sleep none rfl
  | succ left induction =>
      intro scheduler index none notifying last
      rcases Nat.lt_or_ge index n with inside | outside
      · apply DispatcherEnds.of_next
          { scheduler.notify ⟨index, inside⟩ with dispatcher := .notify (index + 1) }
        · simp [dispatch, notifying, inside]
        · exact induction _ (index + 1) none rfl (by omega)
      · exact induction scheduler index none notifying (by omega)

/-- Once the count is down, the loop of the dispatcher ends after the round it is in. -/
theorem dispatcherEnds_of_none (none : scheduler.currentThread ≤ 0) :
    scheduler.DispatcherEnds := by
  cases dispatcher : scheduler.dispatcher with
  | check => exact dispatcherEnds_check none dispatcher
  | notify index => exact dispatcherEnds_notify n scheduler index none dispatcher (by omega)
  | sleep => exact dispatcherEnds_sleep none dispatcher
  | ended => exact dispatcherEnds_ended dispatcher

/-- While no Processer leaves before its wait, every exit takes one off the count and
nothing else does, so that the last exit lets the dispatcher end. -/
theorem shutdown_counts_out
    (reachable : (machine n Fiber Producer).ReachableWhere LeavesWaited scheduler) :
    (∀ action next, scheduler.LeavesWaited action → scheduler.step action = some next →
      (∃ p, (scheduler.position p).isReturned = false ∧ next.position p = .returned ∧
        next.currentThread = scheduler.currentThread - 1) ∨
      (∀ p, (next.position p).isReturned = (scheduler.position p).isReturned) ∧
        next.currentThread = scheduler.currentThread) ∧
    ((∀ p, scheduler.position p = .returned) →
      scheduler.currentThread = 0 ∧ scheduler.DispatcherEnds) := by
  constructor
  · intro action next allowed taken
    rcases allowed.cases taken with continues | ⟨p, rfl, leaving⟩
    · exact .inr ⟨continues.returned, continues.currentThread⟩
    · rcases leave_waited leaving taken with ⟨currentThread, position⟩
      exact .inl ⟨p, by rw [leaving]; rfl, by rw [position, Function.update_self],
        currentThread⟩
  · intro returned
    have counts : scheduler.currentThread = scheduler.live.card :=
      countsOut_of_reachable reachable
    have nobody : scheduler.live = ∅ := by
      ext p
      simp [mem_live, returned, Position.isReturned]
    have zero : scheduler.currentThread = 0 := by simp [counts, nobody]
    exact ⟨zero, dispatcherEnds_of_none (by omega)⟩

/-- A Processer that was asleep when `stop` was called. -/
theorem shutdown_counts_out_asleep :
    ∃ scheduler : Scheduler 1 Nat Nat, scheduler.position 0 = .returned ∧
      scheduler.currentThread = 0 ∧ scheduler.DispatcherEnds := by
  have starts : (machine 1 Nat Nat).initial (start 1 Nat Nat) := rfl
  rcases Machine.exists_reachableWhere_of_run (machine 1 Nat Nat) LeavesWaited starts
    [.run 0, .balance 0 0, .run 0, .stop, .stop, .stop, .stop,
      .run 0, .run 0, .run 0, .run 0, .run 0, .run 0]
    (fun scheduler => scheduler.position 0 == .returned) (by decide)
    with ⟨scheduler, reachable, returned⟩
  have returned := eq_of_beq returned
  have all : ∀ p, scheduler.position p = .returned := by
    intro p
    rw [Subsingleton.elim p 0]
    exact returned
  exact ⟨scheduler, returned, (shutdown_counts_out reachable).2 all⟩

/-! ## The exit before the wait -/

/-- Every Processer has returned and is still counted. -/
structure Stuck (scheduler : Scheduler n Fiber Producer) : Prop where
  returned : ∀ p, scheduler.position p = .returned
  counted : 0 < scheduler.currentThread
  dispatching : scheduler.dispatcher ≠ .ended
  stopping : scheduler.stopper ≠ .stopped

/-- Only its own steps move the dispatcher, and only its own steps move `stop`. -/
theorem step_threads {action : SchedulerAction n Fiber Producer}
    (taken : scheduler.step action = some next) :
    (next.dispatcher = scheduler.dispatcher ∨ scheduler.dispatch = some next) ∧
    (next.stopper = scheduler.stopper ∨ scheduler.stop = some next) := by
  cases action with
  | dispatch =>
      refine ⟨.inr taken, .inl ?_⟩
      simp only [step, dispatch] at taken
      repeat' split at taken
      all_goals cases taken <;> rfl
  | stop =>
      refine ⟨.inl ?_, .inr taken⟩
      simp only [step, stop] at taken
      repeat' split at taken
      all_goals cases taken <;> rfl
  | _ =>
      simp only [step, run, balance, interrupt, publish, yieldToReady, finish, addCallback,
        addNew, register, withdraw, wake, proceed, endReactor] at taken
      repeat' split at taken
      all_goals cases taken <;> exact ⟨.inl rfl, .inl rfl⟩

omit [DecidableEq Fiber] [DecidableEq Producer] in
theorem dispatch_ended (taken : scheduler.dispatch = some next)
    (ended : next.dispatcher = .ended) : scheduler.currentThread ≤ 0 := by
  simp only [dispatch] at taken
  split at taken
  · cases taken
    apply Classical.byContradiction
    intro counted
    simp [show scheduler.currentThread > 0 by omega] at ended
  · split at taken <;> cases taken <;> cases ended
  · cases taken
    cases ended
  · cases taken

omit [DecidableEq Fiber] [DecidableEq Producer] in
theorem stop_stopped (taken : scheduler.stop = some next)
    (stopped : next.stopper = .stopped) : scheduler.dispatcher = .ended := by
  simp only [stop] at taken
  repeat' split at taken
  all_goals
    cases taken <;> first
      | assumption
      | cases stopped

theorem Stuck.step (stuck : scheduler.Stuck) {action : SchedulerAction n Fiber Producer}
    (taken : scheduler.step action = some next) : next.Stuck := by
  have continues : Continues scheduler next := by
    rcases step_continues taken with continues | ⟨p, waited, _, leaving⟩
    · exact continues
    · rw [stuck.returned p] at leaving
      cases leaving
  rcases step_threads taken with ⟨dispatcher, stopper⟩
  constructor
  · intro p
    have returned := continues.returned p
    rw [stuck.returned p] at returned
    cases position : next.position p <;> simp_all [Position.isReturned]
  · rw [continues.currentThread]
    exact stuck.counted
  · intro ended
    rcases dispatcher with same | dispatched
    · rw [same] at ended
      exact stuck.dispatching ended
    · have none := dispatch_ended dispatched ended
      have counted := stuck.counted
      omega
  · intro stopped
    rcases stopper with same | stopping
    · rw [same] at stopped
      exact stuck.stopping stopped
    · exact stuck.dispatching (stop_stopped stopping stopped)

theorem Stuck.run {actions : List (SchedulerAction n Fiber Producer)} {later}
    (stuck : scheduler.Stuck)
    (executed : (machine n Fiber Producer).run scheduler actions = some later) :
    later.Stuck := by
  induction actions generalizing scheduler with
  | nil =>
      cases executed
      exact stuck
  | cons action rest induction =>
      rcases Option.bind_eq_some_iff.mp executed with ⟨next, taken, later⟩
      exact induction (stuck.step taken) later

/-- One fiber runs and ends, then `stop` is called. The Processer has not gone to sleep
since, finds nothing left at its first exit test and returns. -/
theorem exit_before_wait_stuck :
    ∃ scheduler : Scheduler 1 Nat Nat, (machine 1 Nat Nat).Reachable scheduler ∧
      (∀ p, scheduler.position p = .returned) ∧ scheduler.currentThread = 1 ∧
      ∀ actions later, (machine 1 Nat Nat).run scheduler actions = some later →
        later.dispatcher ≠ .ended ∧ later.stopper ≠ .stopped := by
  have starts : (machine 1 Nat Nat).initial (start 1 Nat Nat) := rfl
  rcases Machine.exists_reachable_of_run (machine 1 Nat Nat) starts
    [.addCallback 0 7 0, .proceed 0, .proceed 0, .proceed 0, .proceed 0,
      .run 0, .run 0, .run 0, .run 0, .run 0, .run 0, .finish 0 false, .run 0, .run 0,
      .run 0, .run 0, .run 0, .run 0, .run 0, .stop, .stop, .stop,
      .run 0, .balance 0 0, .run 0, .run 0, .run 0, .run 0, .run 0,
      .stop, .stop, .stop, .endReactor, .stop]
    (fun scheduler => scheduler.position 0 == .returned && scheduler.currentThread == 1 &&
      scheduler.dispatcher == .check && scheduler.stopper == .joinDispatcher) (by decide)
    with ⟨scheduler, reachable, passes⟩
  simp only [Bool.and_eq_true, beq_iff_eq] at passes
  rcases passes with ⟨⟨⟨returned, counted⟩, checking⟩, joining⟩
  have all : ∀ p, scheduler.position p = .returned := by
    intro p
    rw [Subsingleton.elim p 0]
    exact returned
  have stuck : scheduler.Stuck :=
    ⟨all, by omega, by simp [checking], by simp [joining]⟩
  refine ⟨scheduler, reachable, all, counted, ?_⟩
  intro actions later executed
  have stuck := stuck.run executed
  exact ⟨stuck.dispatching, stuck.stopping⟩

end Scheduler

end FiberNet
