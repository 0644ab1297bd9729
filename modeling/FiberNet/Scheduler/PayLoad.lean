import FiberNet.Foundation.Totals
import FiberNet.Scheduler.Exclusive

/-! # What `m_payLoad` counts

`m_payLoad` is changed apart from the queue, by the loop of the Processer, by `steal` and
`store`, and by each producer in `addFiber`. It is off the number of fibers that the
Processer owns by exactly what these threads have moved and not counted yet.
-/

namespace FiberNet

namespace WorkQueue

variable {Fiber : Type}

def length (que : WorkQueue Fiber) : Nat :=
  que.low.length + que.normal.length + que.emerg.length

theorem length_addFiber {que : WorkQueue Fiber} (unlimited : que.Unlimited) (fiber : Fiber) :
    (que.addFiber (some fiber)).1.length = que.length + 1 := by
  simp only [addFiber_eq unlimited, length, List.length_append, List.length_singleton]
  omega

theorem length_fetchFiber {que rest : WorkQueue Fiber} {prio : Priority} {fiber : Fiber}
    (fetched : que.fetchFiber = some (prio, fiber, rest)) : que.length = rest.length + 1 := by
  rcases que with ⟨limit, low, normal, emerg⟩
  cases low <;> cases normal <;> cases emerg <;>
    simp only [fetchFiber, Option.some.injEq, Prod.mk.injEq, reduceCtorEq] at fetched <;>
    rcases fetched with ⟨_, _, rfl⟩ <;>
    simp only [length, List.length_cons, List.length_nil] <;>
    omega

theorem length_fetchFibers (que : WorkQueue Fiber) (nr : Nat) :
    que.length = (que.fetchFibers nr).2.length + (que.fetchFibers nr).1.length := by
  have split := congrArg List.length (List.take_append_drop nr que.normal)
  rw [List.length_append] at split
  simp only [fetchFibers_eq, length]
  omega

theorem length_addFibers {que : WorkQueue Fiber} (unlimited : que.Unlimited)
    (fibers : List Fiber) :
    (que.addFibers (fibers.map some)).1.length = que.length + fibers.length := by
  simp only [(addFibers_eq unlimited fibers).1, length, List.length_append]
  omega

end WorkQueue

namespace Position

variable {Fiber : Type}

/-- 1 while `Processer::run` has fetched a fiber and neither put it back nor subtracted
it. -/
def held : Position Fiber → Nat
  | .checkHold _ | .checkReady _ | .checkExec _ | .requeue _ | .setReady _ | .swapIn _
  | .inside _ _ | .testReady _ | .addReady _ | .testExec _ | .setHold _ | .testHold _
  | .testTerm _ | .testExcept _ | .subtract _ => 1
  | _ => 0

/-- The fibers that `steal` took from the queue and has not subtracted. -/
def taken : Position Fiber → Nat
  | .subtractStolen fibers => fibers.length
  | _ => 0

/-- The fibers that `store` put into the queue and has not added. -/
def stored : Position Fiber → Nat
  | .addStored nr _ => nr
  | _ => 0

end Position

/-- The Processer whose queue `addFiber` pushed to without adding to `m_payLoad` yet. -/
def Submission.pushed {n : Nat} {Fiber : Type} : Submission n Fiber → Option (Fin n)
  | .count processer _ => some processer
  | _ => none

namespace Submission

variable {n : Nat} {Fiber : Type} {p : Fin n} {holds : Int}

@[simp] theorem pushed_idle : (idle : Submission n Fiber).pushed = none := rfl

@[simp] theorem pushed_push {fiber : Fiber} : (push fiber p holds).pushed = none := rfl

@[simp] theorem pushed_count : (count p holds : Submission n Fiber).pushed = some p := rfl

@[simp] theorem pushed_post : (post p holds : Submission n Fiber).pushed = none := rfl

@[simp] theorem pushed_release : (release holds : Submission n Fiber).pushed = none := rfl

end Submission

namespace Scheduler

variable {n : Nat} {Fiber Producer : Type}

/-- The producers that have pushed a fiber to a Processer and not added it yet. -/
def adding (scheduler : Scheduler n Fiber Producer) (p : Fin n) : Set Producer :=
  {producer | (scheduler.submission producer).pushed = some p}

/-- The runnable fibers of a Processer: those in its queue and the one in its hands. -/
def owned (scheduler : Scheduler n Fiber Producer) (p : Fin n) : Nat :=
  (scheduler.que p).length + (scheduler.position p).held

/-- `m_payLoad` against what is owned, with what the Processer's own thread has moved and
not counted. -/
def excess (scheduler : Scheduler n Fiber Producer) (p : Fin n) : Int :=
  scheduler.payLoad p - scheduler.owned p - (scheduler.position p).taken +
    (scheduler.position p).stored

structure Accurate (scheduler : Scheduler n Fiber Producer) (p : Fin n) : Prop where
  finite : (scheduler.adding p).Finite
  payLoad : scheduler.payLoad p = scheduler.owned p -
    ((scheduler.adding p).ncard + (scheduler.position p).stored) +
      (scheduler.position p).taken

/-- Nobody is between moving fibers to or from the queue and counting them. -/
def Quiescent (scheduler : Scheduler n Fiber Producer) (p : Fin n) : Prop :=
  (∀ producer, (scheduler.submission producer).pushed ≠ some p) ∧
    (scheduler.position p).stored = 0 ∧ (scheduler.position p).taken = 0

theorem accurate_iff {scheduler : Scheduler n Fiber Producer} {p : Fin n} :
    scheduler.Accurate p ↔
      (scheduler.adding p).Finite ∧ scheduler.excess p = -(scheduler.adding p).ncard := by
  constructor
  · intro accurate
    have payLoad := accurate.payLoad
    refine ⟨accurate.finite, ?_⟩
    unfold excess
    omega
  · rintro ⟨finite, balanced⟩
    unfold excess at balanced
    exact ⟨finite, by omega⟩

/-! ## One step -/

variable {scheduler next : Scheduler n Fiber Producer} {p q : Fin n}

theorem excess_congr (payLoad : next.payLoad q = scheduler.payLoad q)
    (que : next.que q = scheduler.que q)
    (held : (next.position q).held = (scheduler.position q).held)
    (taken : (next.position q).taken = (scheduler.position q).taken)
    (stored : (next.position q).stored = (scheduler.position q).stored) :
    next.excess q = scheduler.excess q := by
  unfold excess owned
  rw [payLoad, que, held, taken, stored]

theorem excess_goTo {position after : Position Fiber} (old : scheduler.position p = position)
    (held : after.held = position.held) (taken : after.taken = position.taken)
    (stored : after.stored = position.stored) (q : Fin n) :
    (scheduler.goTo p after).excess q = scheduler.excess q := by
  subst old
  simp only [excess, owned, goTo]
  rcases eq_or_ne q p with equal | different
  · subst q
    rw [Function.update_self, held, taken, stored]
  · rw [Function.update_of_ne different]

section

variable [DecidableEq Fiber]

theorem run_payLoad (taken : scheduler.run p = some next) (different : q ≠ p) :
    next.payLoad q = scheduler.payLoad q := by
  unfold run at taken
  repeat' split at taken
  all_goals
    first
    | cases taken
      simp [goTo, setQue, setState, addPayLoad, different]
    | cases taken

omit [DecidableEq Fiber] in
theorem payLoad_dispatch (taken : scheduler.dispatch = some next) (q : Fin n) :
    next.payLoad q = scheduler.payLoad q := by
  unfold dispatch at taken
  repeat' split at taken
  all_goals
    cases taken <;> rfl

omit [DecidableEq Fiber] in
theorem payLoad_stop (taken : scheduler.stop = some next) (q : Fin n) :
    next.payLoad q = scheduler.payLoad q := by
  unfold stop at taken
  repeat' split at taken
  all_goals
    cases taken <;> rfl

/-- Whatever a Processer does in its loop, it counts what it moves. -/
theorem excess_run (unlimited : (scheduler.que p).Unlimited)
    (asserted : ∀ fiber, scheduler.position p = .testExcept fiber →
      scheduler.state fiber = .except)
    (taken : scheduler.run p = some next) : next.excess p = scheduler.excess p := by
  cases position : scheduler.position p with
  | fetch =>
      simp only [run, position] at taken
      split at taken
      · rename_i fetched
        have length := WorkQueue.length_fetchFiber fetched
        cases taken
        simp [excess, owned, goTo, setQue, position, Position.held, Position.taken,
          Position.stored]
        omega
      · cases taken
        simp [excess, owned, goTo, position, Position.held, Position.taken, Position.stored]
  | requeue fiber | addReady fiber =>
      simp only [run, position] at taken
      have length := WorkQueue.length_addFiber unlimited fiber
      cases taken
      simp [excess, owned, goTo, setQue, position, Position.held, Position.taken,
        Position.stored]
      omega
  | inside fiber activity =>
      cases activity <;> simp only [run, position] at taken <;> cases taken <;>
        simp [excess, owned, goTo, position, Position.held, Position.taken, Position.stored]
  | testExcept fiber =>
      simp only [run, position, asserted fiber position, if_true] at taken
      cases taken
      simp [excess, owned, goTo, position, Position.held, Position.taken, Position.stored]
  | subtract ended =>
      simp only [run, position] at taken
      cases taken
      cases ended <;>
        simp [excess, owned, goTo, addPayLoad, position, Position.held, Position.taken,
          Position.stored] <;>
        omega
  | steal nr =>
      simp only [run, position] at taken
      have length := WorkQueue.length_fetchFibers (scheduler.que p) nr
      cases taken
      simp only [excess, owned, goTo, setQue, position, Function.update_self]
      split
      · rename_i none
        rw [none, List.length_nil] at length
        simp [Position.held, Position.taken, Position.stored]
        omega
      · simp only [Position.held, Position.taken, Position.stored]
        omega
  | subtractStolen fibers =>
      simp only [run, position] at taken
      cases taken
      simp [excess, owned, goTo, addPayLoad, position, Position.held, Position.taken,
        Position.stored]
      omega
  | store fibers =>
      simp only [run, position] at taken
      have added := WorkQueue.length_addFibers unlimited fibers
      rw [(WorkQueue.addFibers_eq unlimited fibers).2] at taken
      cases taken
      simp only [excess, owned, goTo, setQue, position, Function.update_self, Position.held,
        Position.taken, Position.stored]
      omega
  | addStored nr sz =>
      simp only [run, position] at taken
      cases taken
      simp only [excess, owned, goTo, addPayLoad, position, Function.update_self]
      split <;>
        simp only [Position.held, Position.taken, Position.stored] <;>
        omega
  | balance | returned => simp [run, position] at taken
  | _ =>
      simp only [run, position] at taken
      repeat' split at taken
      all_goals
        first
        | cases taken
          simp only [excess, owned, goTo, setState, position, Function.update_self]
          rfl
        | cases taken

end

variable [DecidableEq Fiber] [DecidableEq Producer]

theorem unlimited_of_reachable (reachable : (machine n Fiber Producer).Reachable scheduler)
    (p : Fin n) : (scheduler.que p).Unlimited := by
  rcases exists_custody reachable with ⟨place, runner, custody⟩
  exact custody.unlimited p

omit [DecidableEq Fiber] [DecidableEq Producer] in
theorem adding_of_submission (submission : next.submission = scheduler.submission) (q : Fin n) :
    next.adding q = scheduler.adding q := by
  unfold adding
  rw [submission]

omit [DecidableEq Fiber] in
/-- A producer that starts a call has pushed nothing yet. -/
theorem adding_push {producer : Producer} {fiber : Fiber} {holds : Int}
    (idle : scheduler.submission producer = .idle)
    (moved : next.submission =
      Function.update scheduler.submission producer (.push fiber p holds)) (q : Fin n) :
    next.adding q = scheduler.adding q := by
  ext other
  rcases eq_or_ne other producer with equal | different
  · subst other
    simp [adding, moved, idle]
  · simp [adding, moved, different]

omit [DecidableEq Fiber] in
/-- A producer that pushes adds itself to those that are adding, and leaves them when it
counts. -/
theorem accurate_proceed (unlimited : ∀ p, (scheduler.que p).Unlimited) {producer : Producer}
    (taken : scheduler.proceed producer = some next) (accurate : scheduler.Accurate q) :
    next.Accurate q := by
  rw [accurate_iff] at accurate ⊢
  rcases accurate with ⟨finite, balanced⟩
  have counted := fun submission =>
    ncard_update scheduler.submission (fun submission => submission.pushed = some q) finite
      producer submission
  unfold adding at balanced ⊢
  unfold proceed at taken
  cases submission : scheduler.submission producer with
  | idle => simp [submission] at taken
  | push fiber p holds =>
      simp only [submission] at taken counted
      have length := WorkQueue.length_addFiber (unlimited p) fiber
      cases taken
      rcases counted (.count p holds) with ⟨finite, ncard⟩
      refine ⟨finite, ?_⟩
      simp only [Submission.pushed_push, Submission.pushed_count, reduceCtorEq, if_false,
        Option.some.injEq] at ncard
      simp only [excess, owned, setSubmission, setQue] at balanced ⊢
      by_cases own : p = q
      · subst q
        rw [if_pos rfl] at ncard
        rw [Function.update_self]
        omega
      · rw [if_neg own] at ncard
        rw [Function.update_of_ne (Ne.symm own)]
        omega
  | count p holds =>
      simp only [submission] at taken counted
      cases taken
      rcases counted (.post p holds) with ⟨finite, ncard⟩
      refine ⟨finite, ?_⟩
      simp only [Submission.pushed_count, Submission.pushed_post, reduceCtorEq, if_false,
        Option.some.injEq] at ncard
      simp only [excess, owned, setSubmission, addPayLoad] at balanced ⊢
      by_cases own : p = q
      · subst q
        rw [if_pos rfl] at ncard
        rw [Function.update_self]
        omega
      · rw [if_neg own] at ncard
        rw [Function.update_of_ne (Ne.symm own)]
        omega
  | post p holds =>
      simp only [submission] at taken counted
      cases taken
      rcases counted (.release holds) with ⟨finite, ncard⟩
      refine ⟨finite, ?_⟩
      simp only [Submission.pushed_post, Submission.pushed_release, reduceCtorEq,
        if_false] at ncard
      simp only [excess, owned, setSubmission, notify] at balanced ⊢
      omega
  | release holds =>
      simp only [submission] at taken counted
      cases taken
      rcases counted .idle with ⟨finite, ncard⟩
      refine ⟨finite, ?_⟩
      simp only [Submission.pushed_release, Submission.pushed_idle, reduceCtorEq,
        if_false] at ncard
      simp only [excess, owned, setSubmission] at balanced ⊢
      omega

/-- The threads besides `addFiber` keep the balance, and leave the producers alone. -/
theorem excess_step {action : SchedulerAction n Fiber Producer}
    (reachable : (machine n Fiber Producer).Reachable scheduler)
    (taken : scheduler.step action = some next)
    (other : ∀ producer, action ≠ .proceed producer) (q : Fin n) :
    next.excess q = scheduler.excess q ∧ next.adding q = scheduler.adding q := by
  cases action with
  | run p =>
      rcases run_frame taken with ⟨submission, others⟩
      refine ⟨?_, adding_of_submission submission q⟩
      rcases eq_or_ne q p with equal | different
      · subst q
        exact excess_run (unlimited_of_reachable reachable p)
          (fun fiber => (state_assertions reachable p fiber).2.2) taken
      · rcases others q different with ⟨position, que, _⟩
        apply excess_congr (run_payLoad taken different) que <;> rw [position]
  | balance p maxPrc =>
      simp only [step, balance] at taken
      split at taken
      · rename_i position
        split at taken <;> cases taken <;>
          exact ⟨excess_goTo (by exact position) (by rfl) (by rfl) (by rfl) q, rfl⟩
      · cases taken
  | interrupt p =>
      simp only [step, interrupt] at taken
      split at taken
      · rename_i position
        cases taken
        exact ⟨excess_goTo (by exact position) (by rfl) (by rfl) (by rfl) q, rfl⟩
      · cases taken
  | publish p source =>
      simp only [step, publish] at taken
      split at taken
      · rename_i position
        cases taken
        exact ⟨excess_goTo (by exact position) (by rfl) (by rfl) (by rfl) q, rfl⟩
      · cases taken
  | yieldToReady p =>
      simp only [step, yieldToReady] at taken
      split at taken
      · rename_i position
        cases taken
        exact ⟨excess_goTo (by exact position) (by rfl) (by rfl) (by rfl) q, rfl⟩
      · cases taken
  | finish p thrown =>
      simp only [step, finish] at taken
      split at taken
      · rename_i position
        cases taken
        exact ⟨excess_goTo (by exact position) (by rfl) (by rfl) (by rfl) q, rfl⟩
      · cases taken
  | addCallback producer fiber p =>
      simp only [step, addCallback, Option.ite_none_right_eq_some, Option.some.injEq] at taken
      rcases taken with ⟨⟨idle, _⟩, rfl⟩
      exact ⟨rfl, adding_push idle rfl q⟩
  | addNew producer fiber p =>
      simp only [step, addNew, Option.ite_none_right_eq_some, Option.some.injEq] at taken
      rcases taken with ⟨⟨idle, _⟩, rfl⟩
      exact ⟨rfl, adding_push idle rfl q⟩
  | register fiber source =>
      simp only [step, register, Option.ite_none_right_eq_some, Option.some.injEq] at taken
      rcases taken with ⟨_, rfl⟩
      exact ⟨rfl, rfl⟩
  | withdraw fiber =>
      simp only [step, withdraw] at taken
      split at taken <;> cases taken
      exact ⟨rfl, rfl⟩
  | wake producer fiber p =>
      simp only [step, wake] at taken
      split at taken
      · rename_i idle _
        cases taken
        exact ⟨rfl, adding_push idle rfl q⟩
      · cases taken
  | proceed producer => exact absurd rfl (other producer)
  | dispatch =>
      have same := sameFibers_dispatch taken
      refine ⟨?_, adding_of_submission same.submission q⟩
      apply excess_congr (payLoad_dispatch taken q) (by rw [same.que]) <;> rw [same.position]
  | stop =>
      have same := sameFibers_stop taken
      refine ⟨?_, adding_of_submission same.submission q⟩
      apply excess_congr (payLoad_stop taken q) (by rw [same.que]) <;> rw [same.position]
  | endReactor =>
      simp only [step, endReactor, Option.ite_none_right_eq_some, Option.some.injEq] at taken
      rcases taken with ⟨_, rfl⟩
      exact ⟨rfl, rfl⟩

omit [DecidableEq Fiber] [DecidableEq Producer] in
theorem accurate_start (p : Fin n) : (start n Fiber Producer).Accurate p := by
  have none : (start n Fiber Producer).adding p = ∅ := by
    simp [adding, start]
  refine ⟨by rw [none]; exact Set.finite_empty, ?_⟩
  rw [none, Set.ncard_empty]
  rfl

theorem accurate_of_reachable (reachable : (machine n Fiber Producer).Reachable scheduler)
    (p : Fin n) : scheduler.Accurate p := by
  have starts : ∀ scheduler, (machine n Fiber Producer).initial scheduler →
      scheduler.Accurate p := by
    intro scheduler starts
    rw [starts]
    exact accurate_start p
  apply reachable.invariant starts
  intro scheduler action next reachable accurate _ taken
  by_cases proceeds : ∃ producer, action = .proceed producer
  · rcases proceeds with ⟨producer, rfl⟩
    exact accurate_proceed (unlimited_of_reachable reachable) taken accurate
  · have kept := excess_step reachable taken (by simpa using proceeds) p
    rw [accurate_iff] at accurate ⊢
    rwa [kept.1, kept.2]

/-- In every state `m_payLoad` differs from what the Processer owns by what has been moved and
not counted, so when nobody is between the two it is the number of its runnable fibers. -/
theorem payLoad_accurate (reachable : (machine n Fiber Producer).Reachable scheduler)
    (p : Fin n) :
    scheduler.Accurate p ∧
      (scheduler.Quiescent p → scheduler.payLoad p = scheduler.owned p) := by
  have accurate := accurate_of_reachable reachable p
  refine ⟨accurate, ?_⟩
  rintro ⟨pushed, stored, taken⟩
  have none : scheduler.adding p = ∅ := Set.eq_empty_of_forall_notMem pushed
  have payLoad := accurate.payLoad
  rw [none, Set.ncard_empty, stored, taken] at payLoad
  omega

/-- A producer between its push and its count, beside a fiber that runs. -/
theorem payLoad_accurate_pushed :
    ∃ scheduler : Scheduler 2 Nat Nat, scheduler.payLoad 0 = 1 ∧
      (scheduler.que 0).length = 1 ∧ scheduler.Accurate 0 := by
  have starts : (machine 2 Nat Nat).initial (start 2 Nat Nat) := rfl
  rcases Machine.exists_reachable_of_run (machine 2 Nat Nat) starts
    [.addCallback 0 7 0, .proceed 0, .proceed 0, .run 0, .run 0, .run 0, .run 0, .run 0,
      .addCallback 1 8 0, .proceed 1]
    (fun scheduler => scheduler.payLoad 0 == 1 && (scheduler.que 0).length == 1) (by decide)
    with ⟨scheduler, reachable, tested⟩
  rw [Bool.and_eq_true] at tested
  exact ⟨scheduler, eq_of_beq tested.1, eq_of_beq tested.2,
    (payLoad_accurate reachable 0).1⟩

end Scheduler

end FiberNet
