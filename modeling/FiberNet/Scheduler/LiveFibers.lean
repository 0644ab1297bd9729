import FiberNet.Scheduler.Exclusive
import Mathlib.Data.Finset.Card
import Mathlib.Data.Fintype.Option

/-! # What `m_totalFibers` counts

`m_totalFibers` is raised where `addFiber` is given a callback and lowered where a
Processer finds that a fiber ended. To say whether the two balance, the run is
recorded: which fibers `addFiber` was ever given, and which ones ended.
-/

namespace FiberNet

namespace Position

variable {Fiber : Type}

/-- Past the test of `m_totalFibers` and on the way out of `Processer::run`. -/
def leaving : Position Fiber → Bool
  | .testQueue _ | .testHolds _ | .leave _ => true
  | _ => false

end Position

/-- The fiber that an action passes to `Processer::addFiber`. -/
def SchedulerAction.hands {n : Nat} {Fiber Producer : Type} :
    SchedulerAction n Fiber Producer → Option Fiber
  | .addCallback _ fiber _ | .addNew _ fiber _ | .wake _ fiber _ => some fiber
  | _ => none

/-- What an action adds to `m_totalFibers`. -/
def SchedulerAction.raises {n : Nat} {Fiber Producer : Type} :
    SchedulerAction n Fiber Producer → Int
  | .addCallback _ _ _ => 1
  | _ => 0

namespace Scheduler

variable {n : Nat} {Fiber Producer : Type}

/-- The fiber that an action takes off the count as `TERM` or `EXCEPT`. -/
def terminates (scheduler : Scheduler n Fiber Producer) :
    SchedulerAction n Fiber Producer → Option Fiber
  | .run p =>
      match scheduler.position p with
      | .retire fiber => some fiber
      | _ => none
  | _ => none

end Scheduler

/-- A scheduler with the history of its run. -/
structure Ledger (n : Nat) (Fiber Producer : Type) where
  scheduler : Scheduler n Fiber Producer
  handed : Finset Fiber
  terminated : Finset Fiber

namespace Ledger

variable {n : Nat} {Fiber Producer : Type} [DecidableEq Fiber]

def live (ledger : Ledger n Fiber Producer) : Finset Fiber :=
  ledger.handed \ ledger.terminated

def start (n : Nat) (Fiber Producer : Type) : Ledger n Fiber Producer where
  scheduler := Scheduler.start n Fiber Producer
  handed := ∅
  terminated := ∅

/-- The state of the ledger after a step that takes its scheduler to `scheduler`. -/
def after (ledger : Ledger n Fiber Producer) (action : SchedulerAction n Fiber Producer)
    (scheduler : Scheduler n Fiber Producer) : Ledger n Fiber Producer where
  scheduler := scheduler
  handed := ledger.handed ∪ action.hands.toFinset
  terminated := ledger.terminated ∪ (ledger.scheduler.terminates action).toFinset

def step [DecidableEq Producer] (ledger : Ledger n Fiber Producer)
    (action : SchedulerAction n Fiber Producer) : Option (Ledger n Fiber Producer) :=
  (ledger.scheduler.step action).map (ledger.after action)

def machine (n : Nat) (Fiber Producer : Type) [DecidableEq Fiber] [DecidableEq Producer] :
    Machine (Ledger n Fiber Producer) (SchedulerAction n Fiber Producer) where
  initial ledger := ledger = start n Fiber Producer
  step := step

/-- `addFiber(Fiber::ptr)` is only given fibers that were handed before, and no
callback is handed while a Processer is between its test of `m_totalFibers` and its
return. -/
def Counted (ledger : Ledger n Fiber Producer) :
    SchedulerAction n Fiber Producer → Prop
  | .addCallback _ _ _ => ∀ p, (ledger.scheduler.position p).leaving = false
  | .addNew _ fiber _ | .wake _ fiber _ => fiber ∈ ledger.handed
  | _ => True

instance (ledger : Ledger n Fiber Producer) (action : SchedulerAction n Fiber Producer) :
    Decidable (ledger.Counted action) := by
  cases action <;> unfold Counted <;> infer_instance

end Ledger

/-! ## Who holds a fiber -/

namespace Scheduler

variable {n : Nat} {Fiber Producer : Type} [DecidableEq Fiber]
  {scheduler next : Scheduler n Fiber Producer} {p : Fin n} {fiber : Fiber}

def HeldBy (scheduler : Scheduler n Fiber Producer) (p : Fin n) (fiber : Fiber) : Prop :=
  (scheduler.position p).front = some fiber ∨ (scheduler.position p).back = some fiber ∨
    fiber ∈ (scheduler.position p).carried ∨ (scheduler.que p).count fiber ≠ 0

/-- A fiber that was passed to `addFiber` and is not parked with a source. -/
def Held (scheduler : Scheduler n Fiber Producer) (fiber : Fiber) : Prop :=
  (∃ p, scheduler.HeldBy p fiber) ∨
    ∃ producer, (scheduler.submission producer).fiber = some fiber

/-- A Processer gets fibers only from its queue. -/
theorem heldBy_of_run (unlimited : (scheduler.que p).Unlimited)
    (taken : scheduler.run p = some next) (held : next.HeldBy p fiber) :
    scheduler.HeldBy p fiber := by
  unfold HeldBy at held ⊢
  cases position : scheduler.position p with
  | fetch =>
      simp only [run, position] at taken
      split at taken
      · rename_i prio fetched rest equal
        cases taken
        have counted := WorkQueue.count_fetchFiber equal fiber
        simp only [goTo, setQue, Function.update_self, Position.front, Position.back,
          Position.carried] at held
        grind
      · cases taken
        simpa [goTo, Position.front, Position.back, Position.carried] using held
  | requeue other | addReady other =>
      simp only [run, position] at taken
      cases taken
      have counted := WorkQueue.count_addFiber unlimited other fiber
      simp only [goTo, setQue, Function.update_self, Position.front, Position.back,
        Position.carried] at held ⊢
      grind
  | inside other activity =>
      cases activity <;> simp only [run, position] at taken <;> cases taken <;>
        simpa [goTo, Position.front, Position.back, Position.carried] using held
  | subtract ended =>
      simp only [run, position] at taken
      cases taken
      cases ended <;>
        simpa [goTo, addPayLoad, Position.front, Position.back, Position.carried] using held
  | steal nr =>
      simp only [run, position] at taken
      cases taken
      have counted := WorkQueue.count_fetchFibers (scheduler.que p) nr fiber
      have absent := @List.count_eq_zero _ _ _ fiber ((scheduler.que p).fetchFibers nr).1
      simp only [goTo, setQue, Function.update_self] at held
      split at held <;>
        simp only [Position.front, Position.back, Position.carried] at held ⊢ <;> grind
  | store fibers =>
      simp only [run, position] at taken
      cases taken
      have counted := WorkQueue.count_addFibers unlimited fibers fiber
      have absent := @List.count_eq_zero _ _ _ fiber fibers
      simp only [goTo, setQue, Function.update_self, Position.front, Position.back,
        Position.carried] at held ⊢
      grind
  | balance | returned => simp [run, position] at taken
  | _ =>
      simp only [run, position] at taken
      repeat' split at taken
      all_goals
        first
        | cases taken
          simp only [goTo, setState, addPayLoad, Function.update_self, Position.front,
            Position.back, Position.carried] at held ⊢
          grind
        | cases taken

theorem leaving_of_run (taken : scheduler.run p = some next)
    (leaving : (next.position p).leaving = true) :
    (scheduler.position p).leaving = true ∨ scheduler.totalFibers ≤ 0 := by
  cases position : scheduler.position p with
  | testTotal waited =>
      simp only [run, position] at taken
      cases taken
      right
      simp only [goTo, Function.update_self] at leaving
      split at leaving
      · assumption
      · split at leaving <;> simp [Position.leaving] at leaving
  | testQueue waited | testHolds waited | leave waited => exact .inl rfl
  | inside fiber activity =>
      cases activity <;> simp only [run, position] at taken <;> cases taken <;>
        simp [goTo, Position.leaving] at leaving
  | subtract ended =>
      simp only [run, position] at taken
      cases taken
      cases ended <;> simp [goTo, Position.leaving] at leaving
  | balance | returned => simp [run, position] at taken
  | _ =>
      simp only [run, position] at taken
      repeat' split at taken
      all_goals
        first
        | cases taken
          simp only [goTo, Function.update_self] at leaving
          simp [Position.leaving] at leaving
        | cases taken

theorem total_of_run (taken : scheduler.run p = some next) :
    next.totalFibers = scheduler.totalFibers -
      if (scheduler.terminates (.run p)).isSome then 1 else 0 := by
  cases position : scheduler.position p with
  | retire fiber =>
      simp only [run, position] at taken
      cases taken
      simp [terminates, position, goTo]
  | balance | returned => simp [run, position] at taken
  | inside fiber activity =>
      cases activity <;> simp only [run, position] at taken <;> cases taken <;>
        simp [terminates, position, goTo]
  | _ =>
      simp only [run, position] at taken
      repeat' split at taken
      all_goals
        first
        | cases taken
          simp [terminates, position, goTo, setQue, setState, addPayLoad]
        | cases taken

omit [DecidableEq Fiber] in
theorem total_dispatch (taken : scheduler.dispatch = some next) :
    next.totalFibers = scheduler.totalFibers := by
  unfold dispatch at taken
  repeat' split at taken
  all_goals
    cases taken <;> rfl

omit [DecidableEq Fiber] in
theorem total_stop (taken : scheduler.stop = some next) :
    next.totalFibers = scheduler.totalFibers := by
  unfold stop at taken
  repeat' split at taken
  all_goals
    cases taken <;> rfl

/-- What one step can do to the fibers and to the count of them. -/
structure Traced [DecidableEq Producer] (scheduler : Scheduler n Fiber Producer)
    (action : SchedulerAction n Fiber Producer) (next : Scheduler n Fiber Producer) :
    Prop where
  held : ∀ fiber, next.Held fiber → scheduler.Held fiber ∨ action.hands = some fiber
  published : ∀ fiber, (next.published fiber).isSome = true →
    (scheduler.published fiber).isSome = true ∨ scheduler.Held fiber ∨
      scheduler.created fiber = false
  created : ∀ fiber, scheduler.created fiber = true → next.created fiber = true
  total : next.totalFibers = scheduler.totalFibers + action.raises -
    if (scheduler.terminates action).isSome then 1 else 0
  leaving : ∀ p, (next.position p).leaving = true → (scheduler.position p).leaving = true ∨
    scheduler.totalFibers ≤ 0 ∧ action = .run p

namespace Traced

variable [DecidableEq Producer] {action : SchedulerAction n Fiber Producer}

omit [DecidableEq Producer] in
theorem held_of_same (que : next.que = scheduler.que)
    (submission : next.submission = scheduler.submission)
    (hands : ∀ q, (next.position q).front = (scheduler.position q).front ∧
      (next.position q).back = (scheduler.position q).back ∧
      (next.position q).carried = (scheduler.position q).carried)
    (held : next.Held fiber) : scheduler.Held fiber := by
  unfold Held HeldBy at held ⊢
  rw [submission] at held
  rcases held with ⟨q, held⟩ | held
  · left
    refine ⟨q, ?_⟩
    rwa [que, (hands q).1, (hands q).2.1, (hands q).2.2] at held
  · exact .inr held

/-- Nothing but counters and the other threads moves. -/
theorem of_same (same : SameFibers scheduler next)
    (total : next.totalFibers = scheduler.totalFibers)
    (raises : action.raises = 0) (terminates : scheduler.terminates action = none) :
    Traced scheduler action next where
  held := by
    intro fiber held
    left
    apply held_of_same same.que same.submission _ held
    intro q
    rw [same.position]
    exact ⟨rfl, rfl, rfl⟩
  published := by
    rw [same.published]
    exact fun _ published => .inl published
  created := by
    rw [same.created]
    exact fun _ created => created
  total := by simp [total, raises, terminates]
  leaving := by
    rw [same.position]
    exact fun _ leaving => .inl leaving

/-- A Processer moves on with the same fiber in hand. -/
theorem of_goTo {position : Position Fiber}
    (moved : next.position = Function.update scheduler.position p position)
    (hands : position.front = (scheduler.position p).front ∧
      position.back = (scheduler.position p).back ∧
      position.carried = (scheduler.position p).carried)
    (stays : position.leaving = false) (que : next.que = scheduler.que)
    (submission : next.submission = scheduler.submission)
    (created : next.created = scheduler.created)
    (published : ∀ fiber, (next.published fiber).isSome = true →
      (scheduler.published fiber).isSome = true ∨ scheduler.Held fiber)
    (total : next.totalFibers = scheduler.totalFibers)
    (raises : action.raises = 0) (terminates : scheduler.terminates action = none) :
    Traced scheduler action next where
  held := by
    intro fiber held
    left
    apply held_of_same que submission _ held
    intro q
    rw [moved]
    rcases eq_or_ne q p with equal | different
    · subst q
      rwa [Function.update_self]
    · rw [Function.update_of_ne different]
      exact ⟨rfl, rfl, rfl⟩
  published := fun fiber later => (published fiber later).imp_right .inl
  created := by
    rw [created]
    exact fun _ created => created
  total := by simp [total, raises, terminates]
  leaving := by
    intro q leaving
    rw [moved] at leaving
    rcases eq_or_ne q p with equal | different
    · subst q
      rw [Function.update_self, stays] at leaving
      cases leaving
    · rw [Function.update_of_ne different] at leaving
      exact .inl leaving

/-- A producer is given a fiber, or hands one over. -/
theorem of_submission (position : next.position = scheduler.position)
    (held : ∀ fiber, next.Held fiber → scheduler.Held fiber ∨ action.hands = some fiber)
    (published : ∀ fiber, (next.published fiber).isSome = true →
      (scheduler.published fiber).isSome = true ∨ scheduler.created fiber = false)
    (created : ∀ fiber, scheduler.created fiber = true → next.created fiber = true)
    (total : next.totalFibers = scheduler.totalFibers + action.raises)
    (terminates : scheduler.terminates action = none) :
    Traced scheduler action next where
  held := held
  published := fun fiber later => (published fiber later).imp_right .inr
  created := created
  total := by simp [total, terminates]
  leaving := by
    rw [position]
    exact fun _ leaving => .inl leaving

theorem of_run (unlimited : (scheduler.que p).Unlimited)
    (taken : scheduler.run p = some next) : Traced scheduler (.run p) next where
  held := by
    intro fiber held
    rcases run_frame taken with ⟨submission, others⟩
    left
    rcases held with ⟨q, held⟩ | submitted
    · left
      refine ⟨q, ?_⟩
      rcases eq_or_ne q p with equal | different
      · subst q
        exact heldBy_of_run unlimited taken held
      · unfold HeldBy at held ⊢
        rwa [(others q different).1, (others q different).2.1] at held
    · right
      rwa [submission] at submitted
  published := by
    rw [(run_sources taken).2]
    exact fun _ published => .inl published
  created := by
    rw [(run_sources taken).1]
    exact fun _ created => created
  total := by
    rw [total_of_run taken]
    simp [SchedulerAction.raises]
  leaving := by
    intro q leaving
    rcases eq_or_ne q p with equal | different
    · subst q
      exact (leaving_of_run taken leaving).imp_right fun none => ⟨none, rfl⟩
    · rw [((run_frame taken).2 q different).1] at leaving
      exact .inl leaving

/-- `addFiber` is entered with a fiber in hand. -/
theorem of_push {producer : Producer} {pushed : Fiber} {holds : Int}
    (position : next.position = scheduler.position) (que : next.que = scheduler.que)
    (moved : next.submission =
      Function.update scheduler.submission producer (.push pushed p holds))
    (hands : action.hands = some pushed)
    (published : ∀ fiber, (next.published fiber).isSome = true →
      (scheduler.published fiber).isSome = true)
    (created : ∀ fiber, scheduler.created fiber = true → next.created fiber = true)
    (total : next.totalFibers = scheduler.totalFibers + action.raises)
    (terminates : scheduler.terminates action = none) :
    Traced scheduler action next := by
  refine of_submission position ?_ (fun fiber later => .inl (published fiber later)) created
    total terminates
  intro fiber held
  unfold Held HeldBy at held ⊢
  rw [position, que, moved] at held
  rcases held with holding | ⟨other, submitted⟩
  · exact .inl (.inl holding)
  · rcases eq_or_ne other producer with equal | different
    · subst other
      rw [Function.update_self] at submitted
      exact .inr (hands.trans submitted)
    · rw [Function.update_of_ne different] at submitted
      exact .inl (.inr ⟨other, submitted⟩)

theorem of_proceed (unlimited : ∀ p, (scheduler.que p).Unlimited) {producer : Producer}
    (taken : scheduler.proceed producer = some next) :
    Traced scheduler (.proceed producer) next := by
  unfold proceed at taken
  cases submission : scheduler.submission producer with
  | idle => simp [submission] at taken
  | push pushed p holds =>
      simp only [submission] at taken
      cases taken
      refine of_submission rfl ?_ (fun _ published => .inl published)
        (fun _ created => created) (by simp [setSubmission, setQue, SchedulerAction.raises]) rfl
      rintro fiber (⟨q, held⟩ | ⟨other, submitted⟩)
      · left
        unfold HeldBy at held
        simp only [setSubmission, setQue, Function.update_apply] at held
        split at held
        · subst q
          rw [WorkQueue.count_addFiber (unlimited p)] at held
          by_cases equal : fiber = pushed
          · subst fiber
            right
            exact ⟨producer, by rw [submission]; rfl⟩
          · rw [if_neg equal, Nat.add_zero] at held
            exact .inl ⟨p, held⟩
        · exact .inl ⟨q, held⟩
      · left; right
        simp only [setSubmission, setQue, Function.update_apply] at submitted
        split at submitted
        · cases submitted
        · exact ⟨other, submitted⟩
  | count p holds | post p holds | release holds =>
      simp only [submission] at taken
      cases taken
      refine of_submission rfl ?_ (fun _ published => .inl published)
        (fun _ created => created)
        (by simp [setSubmission, notify, addPayLoad, SchedulerAction.raises]) rfl
      rintro fiber (holding | ⟨other, submitted⟩)
      · exact .inl (.inl holding)
      · left; right
        simp only [setSubmission, notify, addPayLoad, Function.update_apply] at submitted
        split at submitted
        · cases submitted
        · exact ⟨other, submitted⟩

theorem of_step (unlimited : ∀ p, (scheduler.que p).Unlimited)
    (taken : scheduler.step action = some next) : Traced scheduler action next := by
  cases action with
  | run p => exact of_run (unlimited p) taken
  | balance p maxPrc =>
      simp only [step, balance] at taken
      split at taken
      · rename_i position
        split at taken <;> cases taken <;>
          exact of_goTo rfl (by rw [position]; exact ⟨rfl, rfl, rfl⟩) rfl rfl rfl rfl
            (fun _ published => .inl published) rfl rfl rfl
      · cases taken
  | interrupt p =>
      simp only [step, interrupt] at taken
      split at taken
      · rename_i position
        cases taken
        exact of_goTo rfl (by rw [position]; exact ⟨rfl, rfl, rfl⟩) rfl rfl rfl rfl
          (fun _ published => .inl published) rfl rfl rfl
      · cases taken
  | publish p source =>
      simp only [step, publish] at taken
      split at taken
      · rename_i running position
        cases taken
        refine of_goTo rfl (by rw [position]; exact ⟨rfl, rfl, rfl⟩) rfl rfl rfl rfl ?_ rfl rfl
          rfl
        intro fiber published
        rcases eq_or_ne fiber running with equal | different
        · subst fiber
          exact .inr (.inl ⟨p, .inr (.inl (by rw [position]; rfl))⟩)
        · left
          simpa [goTo, setPublished, different] using published
      · cases taken
  | yieldToReady p =>
      simp only [step, yieldToReady] at taken
      split at taken
      · rename_i position
        cases taken
        exact of_goTo rfl (by rw [position]; exact ⟨rfl, rfl, rfl⟩) rfl rfl rfl rfl
          (fun _ published => .inl published) rfl rfl rfl
      · cases taken
  | finish p thrown =>
      simp only [step, finish] at taken
      split at taken
      · rename_i position
        cases taken
        exact of_goTo rfl (by rw [position]; exact ⟨rfl, rfl, rfl⟩) rfl rfl rfl rfl
          (fun _ published => .inl published) rfl rfl rfl
      · cases taken
  | addCallback producer fiber p =>
      simp only [step, addCallback, Option.ite_none_right_eq_some, Option.some.injEq] at taken
      rcases taken with ⟨⟨_, fresh⟩, rfl⟩
      refine of_push rfl rfl rfl rfl (fun _ published => published) ?_ rfl rfl
      intro other created
      simp only [setSubmission, Function.update_apply]
      split <;> simp [created]
  | addNew producer fiber p =>
      simp only [step, addNew, Option.ite_none_right_eq_some, Option.some.injEq] at taken
      rcases taken with ⟨⟨_, fresh⟩, rfl⟩
      refine of_push rfl rfl rfl rfl (fun _ published => published) ?_
        (by simp [setSubmission, SchedulerAction.raises]) rfl
      intro other created
      simp only [setSubmission, Function.update_apply]
      split <;> simp [created]
  | register fiber source =>
      simp only [step, register, Option.ite_none_right_eq_some, Option.some.injEq] at taken
      rcases taken with ⟨⟨fresh, _⟩, rfl⟩
      refine of_submission rfl (fun _ held => .inl held) ?_ ?_
        (by simp [setPublished, SchedulerAction.raises]) rfl
      · intro other published
        rcases eq_or_ne other fiber with equal | different
        · subst other
          exact .inr fresh
        · left
          simpa [setPublished, different] using published
      · intro other created
        simp only [setPublished, Function.update_apply]
        split <;> simp [created]
  | withdraw fiber =>
      simp only [step, withdraw] at taken
      split at taken
      · cases taken
        refine of_submission rfl (fun _ held => .inl held) ?_ (fun _ created => created)
          (by simp [setPublished, SchedulerAction.raises]) rfl
        intro other published
        left
        simp only [setPublished, Function.update_apply] at published
        split at published
        · cases published
        · exact published
      · cases taken
  | wake producer fiber p =>
      simp only [step, wake] at taken
      split at taken
      · cases taken
        refine of_push rfl rfl rfl rfl ?_ (fun _ created => created)
          (by simp [setSubmission, setPublished, SchedulerAction.raises]) rfl
        intro other published
        simp only [setSubmission, setPublished, Function.update_apply] at published
        split at published
        · cases published
        · exact published
      · cases taken
  | proceed producer => exact of_proceed unlimited taken
  | dispatch => exact of_same (sameFibers_dispatch taken) (total_dispatch taken) rfl rfl
  | stop => exact of_same (sameFibers_stop taken) (total_stop taken) rfl rfl
  | endReactor =>
      simp only [step, endReactor, Option.ite_none_right_eq_some, Option.some.injEq] at taken
      rcases taken with ⟨_, rfl⟩
      exact of_same ⟨rfl, rfl, rfl, rfl, rfl, rfl⟩ rfl rfl rfl

end Traced

end Scheduler

/-! ## The account of a run -/

namespace Ledger

variable {n : Nat} {Fiber Producer : Type} [DecidableEq Fiber]
  {ledger next : Ledger n Fiber Producer}

/-- A terminated fiber is out of reach, so nobody counts it out again. -/
structure Accounts (ledger : Ledger n Fiber Producer) : Prop where
  total : ledger.scheduler.totalFibers = ledger.live.card
  created : ∀ fiber ∈ ledger.handed, ledger.scheduler.created fiber = true
  handed : ∀ fiber, ledger.scheduler.Held fiber → fiber ∈ ledger.handed
  gone : ∀ fiber ∈ ledger.terminated, fiber ∈ ledger.handed ∧
    ¬ ledger.scheduler.Held fiber ∧ ledger.scheduler.published fiber = none
  leaving : ∀ p, (ledger.scheduler.position p).leaving = true → ledger.live = ∅

theorem accounts_start : (start n Fiber Producer).Accounts where
  total := rfl
  created := by simp [start]
  handed := by
    rintro fiber (⟨p, held⟩ | ⟨producer, submitted⟩)
    · simp [start, Scheduler.start, Scheduler.HeldBy, Position.front, Position.back,
        Position.carried, WorkQueue.count] at held
    · simp [start, Scheduler.start, Submission.fiber] at submitted
  gone := by simp [start]
  leaving := by simp [start, Scheduler.start, Position.leaving]

theorem mem_live (fiber : Fiber) :
    fiber ∈ ledger.live ↔ fiber ∈ ledger.handed ∧ fiber ∉ ledger.terminated := by
  simp [live]

variable {place : Fiber → Option (Place n Producer)} {runner : Fiber → Option (Fin n)}

/-- A fiber that is counted out is held by its Processer alone. -/
theorem retired_gone {scheduler next : Scheduler n Fiber Producer} [DecidableEq Producer]
    (custody : Scheduler.Custody scheduler place runner) {p : Fin n} {fiber : Fiber}
    (position : scheduler.position p = .retire fiber) (taken : scheduler.run p = some next) :
    ¬ next.Held fiber ∧ next.published fiber = none := by
  have settled := custody.settled p
  rw [position] at settled
  have runs := (custody.backed p fiber).mp (by rw [position]; rfl)
  have unplaced : ∀ spot, scheduler.refs fiber spot = 0 := by
    intro spot
    rw [custody.placed fiber spot, settled.1]
    simp
  simp only [Scheduler.run, position] at taken
  cases taken
  constructor
  · rintro (⟨q, held⟩ | ⟨producer, submitted⟩)
    · have queued := unplaced (.queue q)
      have carried := unplaced (.carried q)
      have front := unplaced (.front q)
      have back := custody.backed q fiber
      unfold Scheduler.HeldBy at held
      simp only [Scheduler.refs, Scheduler.goTo, Function.update_apply] at *
      split at held
      · subst q
        simp [Position.front, Position.back, Position.carried, queued] at held
      · rw [List.count_eq_zero] at carried
        grind
    · have absent := unplaced (.producer producer)
      simp only [Scheduler.refs] at absent
      simp only [Scheduler.goTo] at submitted
      simp [submitted] at absent
  · have absent := unplaced .source
    simp only [Scheduler.refs] at absent
    simpa [Scheduler.goTo] using absent

section

variable [DecidableEq Producer] {action : SchedulerAction n Fiber Producer}

/-- A fiber that is handed was parked with a source, or it is new. -/
theorem source_of_hands {scheduler next : Scheduler n Fiber Producer} {fiber : Fiber}
    (hands : action.hands = some fiber) (taken : scheduler.step action = some next) :
    (scheduler.published fiber).isSome = true ∨ scheduler.created fiber = false := by
  cases action with
  | addCallback producer other p =>
      cases hands
      simp only [Scheduler.step, Scheduler.addCallback, Option.ite_none_right_eq_some] at taken
      exact .inr taken.1.2
  | addNew producer other p =>
      cases hands
      simp only [Scheduler.step, Scheduler.addNew, Option.ite_none_right_eq_some] at taken
      exact .inr taken.1.2
  | wake producer other p =>
      cases hands
      simp only [Scheduler.step, Scheduler.wake] at taken
      split at taken
      · simp [*]
      · cases taken
  | _ => cases hands

omit [DecidableEq Fiber] [DecidableEq Producer] in
/-- The one way to hand a fiber for the first time is as a callback. -/
theorem Counted.cases (counted : ledger.Counted action) :
    (∃ producer fiber p, action = .addCallback producer fiber p) ∨
      action.raises = 0 ∧ ∀ fiber, action.hands = some fiber → fiber ∈ ledger.handed := by
  cases action with
  | addCallback producer fiber p => exact .inl ⟨producer, fiber, p, rfl⟩
  | addNew producer fiber p | wake producer fiber p =>
      refine .inr ⟨rfl, ?_⟩
      rintro other ⟨⟩
      exact counted
  | _ => exact .inr ⟨rfl, fun _ hands => by cases hands⟩

omit [DecidableEq Fiber] [DecidableEq Producer] in
theorem terminates_cases {scheduler : Scheduler n Fiber Producer} {fiber : Fiber}
    (terminates : scheduler.terminates action = some fiber) :
    ∃ p, action = .run p ∧ scheduler.position p = .retire fiber := by
  cases action with
  | run p =>
      simp only [Scheduler.terminates] at terminates
      split at terminates
      · cases terminates
        exact ⟨p, rfl, ‹_›⟩
      · cases terminates
  | _ => cases terminates

/-- A fiber that comes back through its source is not a terminated one. -/
theorem Accounts.hands_live (accounts : ledger.Accounts)
    {scheduler : Scheduler n Fiber Producer} {fiber : Fiber}
    (hands : action.hands = some fiber)
    (taken : ledger.scheduler.step action = some scheduler) :
    fiber ∉ ledger.terminated := by
  intro terminated
  rcases accounts.gone fiber terminated with ⟨handed, _, unpublished⟩
  rcases source_of_hands hands taken with published | fresh
  · simp [unpublished] at published
  · rw [accounts.created fiber handed] at fresh
    cases fresh

omit [DecidableEq Producer] in
/-- A fiber that is counted out was counted in. -/
theorem Accounts.terminates_live (accounts : ledger.Accounts) {fiber : Fiber}
    (terminates : ledger.scheduler.terminates action = some fiber) : fiber ∈ ledger.live := by
  rcases terminates_cases terminates with ⟨p, rfl, position⟩
  have held : ledger.scheduler.Held fiber := .inl ⟨p, .inr (.inl (by rw [position]; rfl))⟩
  rw [mem_live]
  refine ⟨accounts.handed fiber held, ?_⟩
  intro terminated
  exact (accounts.gone fiber terminated).2.1 held

variable {scheduler : Scheduler n Fiber Producer}

omit [DecidableEq Producer] in
theorem live_after_of_handed
    (handed : ∀ fiber, action.hands = some fiber → fiber ∈ ledger.handed) :
    (ledger.after action scheduler).live =
      ledger.live \ (ledger.scheduler.terminates action).toFinset := by
  ext fiber
  simp only [after, live, Finset.mem_sdiff, Finset.mem_union, Option.mem_toFinset,
    Option.mem_def]
  have known := handed fiber
  tauto

omit [DecidableEq Producer] in
theorem live_after_addCallback {producer : Producer} {fiber : Fiber} {p : Fin n}
    (unhanded : fiber ∉ ledger.handed) (living : fiber ∉ ledger.terminated) :
    (ledger.after (.addCallback producer fiber p) scheduler).live =
      insert fiber ledger.live := by
  ext other
  simp only [after, live, SchedulerAction.hands, Scheduler.terminates, Finset.mem_sdiff,
    Finset.mem_union, Option.mem_toFinset, Option.mem_def, Finset.mem_insert, reduceCtorEq,
    or_false, Option.some.injEq]
  grind

theorem Accounts.total_after (accounts : ledger.Accounts)
    (traced : Scheduler.Traced ledger.scheduler action scheduler)
    (counted : ledger.Counted action)
    (taken : ledger.scheduler.step action = some scheduler) :
    scheduler.totalFibers = (ledger.after action scheduler).live.card := by
  rw [traced.total, accounts.total]
  rcases counted.cases with ⟨producer, fiber, p, rfl⟩ | ⟨raises, handed⟩
  · have living := accounts.hands_live rfl taken
    have unhanded : fiber ∉ ledger.handed := by
      intro handed
      simp only [Scheduler.step, Scheduler.addCallback, Option.ite_none_right_eq_some,
        accounts.created fiber handed] at taken
      cases taken.1.2
    have fresh : fiber ∉ ledger.live := by
      rw [mem_live]
      exact fun live => unhanded live.1
    rw [live_after_addCallback unhanded living, Finset.card_insert_of_notMem fresh]
    simp [SchedulerAction.raises, Scheduler.terminates]
  · rw [live_after_of_handed handed, raises]
    cases terminates : ledger.scheduler.terminates action with
    | none => simp
    | some fiber =>
        have member := accounts.terminates_live terminates
        have positive := Finset.card_pos.mpr ⟨fiber, member⟩
        rw [Option.toFinset_some, Finset.sdiff_singleton_eq_erase,
          Finset.card_erase_of_mem member]
        simp only [Option.isSome_some, ite_true]
        omega

theorem Accounts.leaving_after (accounts : ledger.Accounts)
    (traced : Scheduler.Traced ledger.scheduler action scheduler)
    (counted : ledger.Counted action) (p : Fin n)
    (leaving : (scheduler.position p).leaving = true) :
    (ledger.after action scheduler).live = ∅ := by
  rcases counted.cases with ⟨producer, fiber, q, rfl⟩ | ⟨_, handed⟩
  · rcases traced.leaving p leaving with already | ⟨_, run⟩
    · rw [counted p] at already
      cases already
    · cases run
  · have empty : ledger.live = ∅ := by
      rcases traced.leaving p leaving with already | ⟨none, _⟩
      · exact accounts.leaving p already
      · rw [accounts.total] at none
        exact Finset.card_eq_zero.mp (by omega)
    rw [live_after_of_handed handed, empty, Finset.empty_sdiff]

theorem Accounts.after (accounts : ledger.Accounts)
    (custody : Scheduler.Custody ledger.scheduler place runner)
    (counted : ledger.Counted action)
    (taken : ledger.scheduler.step action = some scheduler) :
    (ledger.after action scheduler).Accounts := by
  have traced := Scheduler.Traced.of_step custody.unlimited taken
  refine ⟨accounts.total_after traced counted taken, ?_, ?_, ?_,
    accounts.leaving_after traced counted⟩
  · intro fiber handed
    simp only [Ledger.after, Finset.mem_union, Option.mem_toFinset, Option.mem_def] at handed ⊢
    rcases handed with handed | hands
    · exact traced.created fiber (accounts.created fiber handed)
    · rcases counted.cases with ⟨producer, other, p, rfl⟩ | ⟨_, known⟩
      · cases hands
        simp only [Scheduler.step, Scheduler.addCallback, Option.ite_none_right_eq_some,
          Option.some.injEq] at taken
        rcases taken with ⟨_, rfl⟩
        simp [Scheduler.setSubmission]
      · exact traced.created fiber (accounts.created fiber (known fiber hands))
  · intro fiber held
    simp only [Ledger.after, Finset.mem_union, Option.mem_toFinset, Option.mem_def] at held ⊢
    exact (traced.held fiber held).imp_left (accounts.handed fiber)
  · intro fiber terminated
    simp only [Ledger.after, Finset.mem_union, Option.mem_toFinset, Option.mem_def] at *
    rcases terminated with terminated | terminates
    · rcases accounts.gone fiber terminated with ⟨handed, unheld, unpublished⟩
      refine ⟨.inl handed, ?_, ?_⟩
      · intro held
        rcases traced.held fiber held with before | hands
        · exact unheld before
        · exact accounts.hands_live hands taken terminated
      · cases published : scheduler.published fiber with
        | none => rfl
        | some source =>
            rcases traced.published fiber (by rw [published]; rfl) with before | before | fresh
            · simp [unpublished] at before
            · exact absurd before unheld
            · rw [accounts.created fiber handed] at fresh
              cases fresh
    · have live := (mem_live fiber).mp (accounts.terminates_live terminates)
      rcases terminates_cases terminates with ⟨p, rfl, position⟩
      exact ⟨.inl live.1, retired_gone custody position taken⟩

/-- A new fiber that reaches a queue through `addFiber(Fiber::ptr)` is not counted. -/
theorem Accounts.first_handed (accounts : ledger.Accounts)
    (custody : Scheduler.Custody ledger.scheduler place runner) {fiber : Fiber}
    (hands : action.hands = some fiber) (uncounted : action.raises = 0)
    (first : fiber ∉ ledger.handed)
    (taken : ledger.scheduler.step action = some scheduler) :
    scheduler.totalFibers + 1 = (ledger.after action scheduler).live.card := by
  have traced := Scheduler.Traced.of_step custody.unlimited taken
  have living := accounts.hands_live hands taken
  have fresh : fiber ∉ ledger.live := by
    rw [mem_live]
    exact fun live => first live.1
  have none : ledger.scheduler.terminates action = none := by
    cases action <;> first | rfl | cases hands
  have inserted : (ledger.after action scheduler).live = insert fiber ledger.live := by
    ext other
    simp only [Ledger.after, live, hands, none, Finset.mem_sdiff, Finset.mem_union,
      Option.mem_toFinset, Option.mem_def, Finset.mem_insert, reduceCtorEq, or_false,
      Option.some.injEq]
    grind
  rw [inserted, Finset.card_insert_of_notMem fresh, traced.total, accounts.total, none,
    uncounted]
  simp

end

/-! ## Runs -/

variable [DecidableEq Producer]

theorem scheduler_reachable (reachable : (machine n Fiber Producer).Reachable ledger) :
    (Scheduler.machine n Fiber Producer).Reachable ledger.scheduler := by
  apply reachable.invariant
  · rintro ledger rfl
    exact .initial rfl
  · intro ledger action next _ before _ taken
    rcases Option.map_eq_some_iff.mp taken with ⟨scheduler, moved, rfl⟩
    exact before.next moved

theorem accounts_of_reachable
    (reachable : (machine n Fiber Producer).ReachableWhere Counted ledger) :
    ledger.Accounts := by
  apply reachable.invariant
  · rintro ledger rfl
    exact accounts_start
  · intro ledger action next before accounts counted taken
    rcases Option.map_eq_some_iff.mp taken with ⟨scheduler, moved, rfl⟩
    rcases Scheduler.exists_custody (scheduler_reachable before.reachable) with
      ⟨place, runner, custody⟩
    exact accounts.after custody counted moved

/-- While `addFiber(Fiber::ptr)` is only given fibers that were handed before, and no
callback is handed behind the back of a Processer on its way out, `m_totalFibers` is the
number of live fibers, and neither a Processer nor the Reactor ends before the last of
them. -/
theorem live_fibers_counted
    (reachable : (machine n Fiber Producer).ReachableWhere Counted ledger) :
    ledger.scheduler.totalFibers = ledger.live.card ∧ 0 ≤ ledger.scheduler.totalFibers ∧
    (∀ p waited, ledger.scheduler.position p = .leave waited → ledger.live = ∅) ∧
    (ledger.scheduler.isStopping = true → ledger.live = ∅) := by
  have accounts := accounts_of_reachable reachable
  refine ⟨accounts.total, ?_, ?_, ?_⟩
  · rw [accounts.total]
    exact Int.natCast_nonneg _
  · intro p waited position
    exact accounts.leaving p (by rw [position]; rfl)
  · intro stopping
    simp only [Scheduler.isStopping, Bool.and_eq_true, decide_eq_true_eq,
      accounts.total] at stopping
    exact Finset.card_eq_zero.mp (by omega)

/-- A counted fiber that parked and was woken. -/
theorem live_fibers_counted_after_wake :
    ∃ ledger : Ledger 2 Nat Nat, ledger.live = {7} ∧ ledger.scheduler.totalFibers = 1 := by
  rcases Machine.exists_reachableWhere_of_run (machine 2 Nat Nat) Counted rfl
    [.addCallback 0 7 0, .proceed 0, .run 0, .run 0, .run 0, .run 0, .run 0, .run 0,
      .publish 0 .event, .wake 1 7 1, .proceed 1, .run 0, .run 0, .run 0, .run 0, .run 0,
      .run 1]
    (fun ledger => ledger.live == {7}) (by decide)
    with ⟨ledger, reachable, live⟩
  have live : ledger.live = {7} := eq_of_beq live
  have counted := (live_fibers_counted reachable).1
  rw [live] at counted
  exact ⟨ledger, live, counted⟩

/-- The first handing that breaks the condition breaks the count. -/
theorem first_handing_miscounts {next : Ledger n Fiber Producer}
    {action : SchedulerAction n Fiber Producer} {fiber : Fiber}
    (reachable : (machine n Fiber Producer).ReachableWhere Counted ledger)
    (hands : action.hands = some fiber) (uncounted : action.raises = 0)
    (first : fiber ∉ ledger.handed) (taken : ledger.step action = some next) :
    next.scheduler.totalFibers + 1 = next.live.card := by
  rcases Option.map_eq_some_iff.mp taken with ⟨scheduler, moved, rfl⟩
  rcases Scheduler.exists_custody (scheduler_reachable reachable.reachable) with
    ⟨place, runner, custody⟩
  exact (accounts_of_reachable reachable).first_handed custody hands uncounted first moved

/-- A callback registered with the Reactor is not counted in: while its fiber runs a
Processer leaves and the Reactor is stopping, and when it ends the count is negative. -/
theorem event_callback_not_counted :
    (∃ ledger : Ledger 2 Nat Nat, (machine 2 Nat Nat).Reachable ledger ∧
      ledger.live = {7} ∧ ledger.scheduler.totalFibers = 0 ∧
      ledger.scheduler.position 0 = .leave false ∧ ledger.scheduler.isStopping = true) ∧
    ∃ ledger : Ledger 2 Nat Nat, (machine 2 Nat Nat).Reachable ledger ∧
      ledger.live = ∅ ∧ ledger.scheduler.totalFibers = -1 := by
  constructor
  · rcases Machine.exists_reachable_of_run (machine 2 Nat Nat) rfl
      [.register 7 .event, .wake 0 7 1, .proceed 0, .proceed 0, .proceed 0, .proceed 0,
        .run 1, .stop, .stop, .stop, .run 0, .balance 0 0, .run 0, .run 0, .run 0, .run 0]
      (fun ledger => decide (ledger.live = {7} ∧ ledger.scheduler.totalFibers = 0 ∧
        ledger.scheduler.position 0 = .leave false ∧ ledger.scheduler.isStopping = true))
      (by decide) with ⟨ledger, reachable, tested⟩
    exact ⟨ledger, reachable, of_decide_eq_true tested⟩
  · rcases Machine.exists_reachable_of_run (machine 2 Nat Nat) rfl
      [.register 7 .event, .wake 0 7 1, .proceed 0, .proceed 0, .proceed 0, .proceed 0,
        .run 1, .run 1, .run 1, .run 1, .run 1, .run 1, .finish 1 false, .run 1, .run 1,
        .run 1, .run 1, .run 1, .run 1, .run 1]
      (fun ledger => decide (ledger.live = ∅ ∧ ledger.scheduler.totalFibers = -1))
      (by decide) with ⟨ledger, reachable, tested⟩
    exact ⟨ledger, reachable, of_decide_eq_true tested⟩

end Ledger

end FiberNet
