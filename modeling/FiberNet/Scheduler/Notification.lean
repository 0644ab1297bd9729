import FiberNet.Scheduler.Scheduler

/-! # No wake-up of a Processer is lost

The queue and the semaphore of a Processer are two objects. From the moment it finds
its queue empty until it waits, whatever a producer pushes is followed by a post that
it has not consumed yet.
-/

namespace FiberNet

namespace Position

variable {Fiber : Type}

/-- After an empty fetch, with no fiber in hand and on the way to `m_sem.wait()`. The
positions after the wait lead to the next fetch. -/
def watching : Position Fiber → Bool
  | .balance | .steal _ | .addStored _ 0 | .wait => true
  | .subtractStolen fibers | .store fibers => fibers.isEmpty
  | .testStopping waited | .testTotal waited | .testQueue waited | .testHolds waited => !waited
  | _ => false

end Position

/-- Between `m_que->addFiber` and `notify()`. -/
def Submission.Delivers {n : Nat} {Fiber : Type} (submission : Submission n Fiber)
    (p : Fin n) : Prop :=
  ∃ holds, submission = .count p holds ∨ submission = .post p holds

namespace Scheduler

variable {n : Nat} {Fiber Producer : Type}

theorem semPost_pos (count : Nat) : 0 < semPost count := by
  unfold semPost
  split <;> omega

/-- The queue of a Processer is empty, or a post is there or on its way. -/
def Announced (scheduler : Scheduler n Fiber Producer) (p : Fin n) : Prop :=
  (scheduler.que p).emptyRelax = true ∨ 0 < scheduler.sem p ∨
    ∃ producer, (scheduler.submission producer).Delivers p

def Watched (scheduler : Scheduler n Fiber Producer) : Prop :=
  ∀ p, (scheduler.position p).watching = true → scheduler.Announced p

variable {scheduler next : Scheduler n Fiber Producer} {p : Fin n}

/-- Posts are only taken away by the Processer itself. -/
theorem Announced.mono (announced : scheduler.Announced p)
    (que : next.que p = scheduler.que p) (sem : scheduler.sem p ≤ next.sem p)
    (submission : next.submission = scheduler.submission) : next.Announced p := by
  rcases announced with empty | posted | delivering
  · left
    rw [que]
    exact empty
  · right; left
    omega
  · right; right
    rw [submission]
    exact delivering

section

variable [DecidableEq Fiber]

/-- A Processer that goes on to its wait has just found its queue empty, or it was
already on its way and left queue and semaphore alone. -/
theorem run_watching (taken : scheduler.run p = some next)
    (watching : (next.position p).watching = true) :
    (next.que p).emptyRelax = true ∨ (scheduler.position p).watching = true ∧
      next.que p = scheduler.que p ∧ next.sem p = scheduler.sem p := by
  cases position : scheduler.position p with
  | fetch =>
      simp only [run, position] at taken
      split at taken <;> cases taken
      · simp [goTo, Position.watching] at watching
      · exact .inl ((WorkQueue.fetchFiber_eq_none_iff _).mp ‹_›)
  | steal nr =>
      simp only [run, position] at taken
      cases taken
      right
      have taken : ((scheduler.que p).fetchFibers nr).1 = [] := by
        apply Classical.byContradiction
        intro stolen
        simp [goTo, Position.watching, stolen] at watching
      rw [WorkQueue.fetchFibers_eq] at taken
      have kept : (scheduler.que p).normal.drop nr = (scheduler.que p).normal := by
        have whole := List.take_append_drop nr (scheduler.que p).normal
        rwa [show (scheduler.que p).normal.take nr = [] from taken, List.nil_append] at whole
      simp [goTo, setQue, WorkQueue.fetchFibers_eq, Position.watching, kept]
  | subtractStolen fibers =>
      simp only [run, position] at taken
      cases taken
      simp only [goTo, Function.update_self] at watching
      exact .inr ⟨watching, rfl, rfl⟩
  | store fibers =>
      simp only [run, position] at taken
      cases taken
      cases fibers with
      | nil => simp [goTo, setQue, WorkQueue.addFibers, Position.watching]
      | cons fiber fibers => simp [goTo, Position.watching] at watching
  | addStored nr sz =>
      simp only [run, position] at taken
      cases taken
      cases sz with
      | zero => simp [goTo, addPayLoad, Position.watching]
      | succ sz => simp [goTo, Position.watching] at watching
  | testStopping waited | testTotal waited | testQueue waited | testHolds waited =>
      simp only [run, position] at taken
      cases taken
      cases waited with
      | false => simp [goTo, Position.watching]
      | true =>
          simp only [goTo, Function.update_self, ite_true] at watching
          split at watching <;> simp [Position.watching] at watching
  | inside fiber activity =>
      cases activity <;> simp only [run, position] at taken <;> cases taken <;>
        simp [goTo, Position.watching] at watching
  | subtract ended =>
      simp only [run, position] at taken
      cases taken
      cases ended <;> simp [goTo, Position.watching] at watching
  | leave waited | wait =>
      simp only [run, position] at taken
      split at taken <;> cases taken <;> simp [goTo, Position.watching] at watching
  | balance | returned => simp [run, position] at taken
  | _ =>
      simp only [run, position] at taken
      cases taken
      simp only [goTo, Function.update_self] at watching
      first
      | split at watching <;> simp [Position.watching] at watching
      | simp [Position.watching] at watching

theorem Watched.run (watched : scheduler.Watched) (taken : scheduler.run p = some next) :
    next.Watched := by
  intro q watching
  rcases run_frame taken with ⟨submission, others⟩
  rcases eq_or_ne q p with equal | different
  · subst q
    rcases run_watching taken watching with empty | ⟨before, que, sem⟩
    · exact .inl empty
    · exact (watched p before).mono que (by omega) submission
  · rcases others q different with ⟨position, que, sem⟩
    rw [position] at watching
    exact (watched q watching).mono que (by omega) submission

end

/-- Any step that moves no Processer and takes no post away. -/
theorem Watched.of_announced (watched : scheduler.Watched)
    (position : next.position = scheduler.position)
    (announced : ∀ q, scheduler.Announced q → next.Announced q) : next.Watched := by
  intro q watching
  rw [position] at watching
  exact announced q (watched q watching)

theorem Watched.goTo (watched : scheduler.Watched) {position : Position Fiber}
    (watching : position.watching = true → (scheduler.position p).watching = true) :
    (scheduler.goTo p position).Watched := by
  intro q watchingNext
  simp only [Scheduler.goTo, Function.update_apply] at watchingNext
  split at watchingNext
  · subst q
    exact (watched p (watching watchingNext)).mono rfl (Nat.le_refl _) rfl
  · exact (watched q watchingNext).mono rfl (Nat.le_refl _) rfl

theorem sem_le_notify (scheduler : Scheduler n Fiber Producer) (p q : Fin n) :
    scheduler.sem q ≤ (scheduler.notify p).sem q := by
  simp only [notify, Function.update_apply, semPost]
  split
  · subst q
    split <;> omega
  · exact Nat.le_refl _

theorem sem_dispatch (taken : scheduler.dispatch = some next) (q : Fin n) :
    scheduler.sem q ≤ next.sem q := by
  unfold dispatch at taken
  split at taken
  · cases taken
    exact Nat.le_refl _
  · split at taken <;> cases taken
    · exact sem_le_notify scheduler _ q
    · exact Nat.le_refl _
  · cases taken
    exact Nat.le_refl _
  · cases taken

theorem sem_stop (taken : scheduler.stop = some next) (q : Fin n) :
    scheduler.sem q ≤ next.sem q := by
  unfold stop at taken
  repeat' split at taken
  all_goals
    cases taken <;> first
      | exact Nat.le_refl _
      | exact sem_le_notify scheduler _ q

theorem Announced.of_same (announced : scheduler.Announced p)
    (same : SameFibers scheduler next) (sem : ∀ q, scheduler.sem q ≤ next.sem q) :
    next.Announced p :=
  announced.mono (by rw [same.que]) (sem p) same.submission

variable [DecidableEq Producer]

/-- One thread moves inside `addFiber`. -/
theorem Announced.resubmit (announced : scheduler.Announced p) {producer : Producer}
    {submission : Submission n Fiber} (que : next.que p = scheduler.que p)
    (sem : scheduler.sem p ≤ next.sem p)
    (moved : next.submission = Function.update scheduler.submission producer submission)
    (delivers : (scheduler.submission producer).Delivers p →
      submission.Delivers p ∨ 0 < next.sem p) : next.Announced p := by
  rcases announced with empty | posted | ⟨other, delivering⟩
  · left
    rw [que]
    exact empty
  · right; left
    omega
  · right
    rcases eq_or_ne other producer with equal | different
    · subst other
      rcases delivers delivering with still | posted
      · right
        exact ⟨producer, by rw [moved, Function.update_self]; exact still⟩
      · exact .inl posted
    · right
      exact ⟨other, by rw [moved, Function.update_of_ne different]; exact delivering⟩

variable [DecidableEq Fiber]

omit [DecidableEq Fiber] in
theorem Watched.proceed (watched : scheduler.Watched) {producer : Producer}
    (taken : scheduler.proceed producer = some next) : next.Watched := by
  cases submission : scheduler.submission producer with
  | idle => simp [Scheduler.proceed, submission] at taken
  | push fiber target holds =>
      simp only [Scheduler.proceed, submission] at taken
      cases taken
      refine watched.of_announced rfl ?_
      intro q announced
      rcases eq_or_ne q target with equal | different
      · right; right
        exact ⟨producer, holds, by simp [setSubmission, equal]⟩
      · refine announced.resubmit (by simp [setSubmission, setQue, different])
          (Nat.le_refl _) rfl ?_
        intro delivers
        rw [submission] at delivers
        simp [Submission.Delivers] at delivers
  | count target holds =>
      simp only [Scheduler.proceed, submission] at taken
      cases taken
      refine watched.of_announced rfl ?_
      intro q announced
      refine announced.resubmit rfl (Nat.le_refl _) rfl ?_
      intro delivers
      rw [submission] at delivers
      rcases delivers with ⟨holds', equal | equal⟩ <;> cases equal
      exact .inl ⟨holds, .inr rfl⟩
  | post target holds =>
      simp only [Scheduler.proceed, submission] at taken
      cases taken
      refine watched.of_announced rfl ?_
      intro q announced
      refine announced.resubmit rfl (sem_le_notify scheduler target q) rfl ?_
      intro delivers
      rw [submission] at delivers
      rcases delivers with ⟨holds', equal | equal⟩ <;> cases equal
      right
      simp [setSubmission, notify, semPost_pos]
  | release holds =>
      simp only [Scheduler.proceed, submission] at taken
      cases taken
      refine watched.of_announced rfl ?_
      intro q announced
      refine announced.resubmit rfl (Nat.le_refl _) rfl ?_
      intro delivers
      rw [submission] at delivers
      simp [Submission.Delivers] at delivers

theorem Watched.step (watched : scheduler.Watched)
    {action : SchedulerAction n Fiber Producer} (taken : scheduler.step action = some next) :
    next.Watched := by
  cases action with
  | run p => exact watched.run taken
  | balance p maxPrc =>
      simp only [Scheduler.step, Scheduler.balance] at taken
      split at taken
      · rename_i position
        split at taken <;> cases taken <;>
          exact watched.goTo fun _ => by rw [position]; rfl
      · cases taken
  | interrupt p =>
      simp only [Scheduler.step, Scheduler.interrupt] at taken
      split at taken <;> cases taken
      exact watched.goTo fun watching => by cases watching
  | publish p source =>
      simp only [Scheduler.step, Scheduler.publish] at taken
      split at taken <;> cases taken
      refine Watched.goTo (watched.of_announced rfl fun _ announced => ?_)
        fun watching => by cases watching
      exact announced.mono rfl (Nat.le_refl _) rfl
  | yieldToReady p =>
      simp only [Scheduler.step, Scheduler.yieldToReady] at taken
      split at taken <;> cases taken
      refine Watched.goTo (watched.of_announced rfl fun _ announced => ?_)
        fun watching => by cases watching
      exact announced.mono rfl (Nat.le_refl _) rfl
  | finish p thrown =>
      simp only [Scheduler.step, Scheduler.finish] at taken
      split at taken <;> cases taken
      refine Watched.goTo (watched.of_announced rfl fun _ announced => ?_)
        fun watching => by cases watching
      exact announced.mono rfl (Nat.le_refl _) rfl
  | addCallback producer fiber target =>
      simp only [Scheduler.step, Scheduler.addCallback, Option.ite_none_right_eq_some,
        Option.some.injEq] at taken
      rcases taken with ⟨⟨idle, _⟩, rfl⟩
      refine watched.of_announced rfl ?_
      intro q announced
      refine announced.resubmit rfl (Nat.le_refl _) rfl ?_
      intro delivers
      rw [idle] at delivers
      simp [Submission.Delivers] at delivers
  | addNew producer fiber target =>
      simp only [Scheduler.step, Scheduler.addNew, Option.ite_none_right_eq_some,
        Option.some.injEq] at taken
      rcases taken with ⟨⟨idle, _⟩, rfl⟩
      refine watched.of_announced rfl ?_
      intro q announced
      refine announced.resubmit rfl (Nat.le_refl _) rfl ?_
      intro delivers
      rw [idle] at delivers
      simp [Submission.Delivers] at delivers
  | register fiber source =>
      simp only [Scheduler.step, Scheduler.register, Option.ite_none_right_eq_some,
        Option.some.injEq] at taken
      rcases taken with ⟨_, rfl⟩
      exact watched.of_announced rfl fun _ announced => announced.mono rfl (Nat.le_refl _) rfl
  | withdraw fiber =>
      simp only [Scheduler.step, Scheduler.withdraw] at taken
      split at taken <;> cases taken
      exact watched.of_announced rfl fun _ announced => announced.mono rfl (Nat.le_refl _) rfl
  | wake producer fiber target =>
      simp only [Scheduler.step, Scheduler.wake] at taken
      split at taken <;> cases taken
      rename_i idle _
      refine watched.of_announced rfl ?_
      intro q announced
      refine announced.resubmit rfl (Nat.le_refl _) rfl ?_
      intro delivers
      rw [idle] at delivers
      simp [Submission.Delivers] at delivers
  | proceed producer => exact watched.proceed taken
  | dispatch =>
      have same := sameFibers_dispatch taken
      exact watched.of_announced same.position fun _ announced =>
        announced.of_same same (sem_dispatch taken)
  | stop =>
      have same := sameFibers_stop taken
      exact watched.of_announced same.position fun _ announced =>
        announced.of_same same (sem_stop taken)
  | endReactor =>
      simp only [Scheduler.step, Scheduler.endReactor, Option.ite_none_right_eq_some,
        Option.some.injEq] at taken
      rcases taken with ⟨_, rfl⟩
      exact watched.of_announced rfl fun _ announced => announced.mono rfl (Nat.le_refl _) rfl

/-! ## Runs -/

theorem watched_of_reachable (reachable : (machine n Fiber Producer).Reachable scheduler) :
    scheduler.Watched := by
  apply reachable.invariant
  · intro scheduler starts p watching
    rw [starts] at watching
    cases watching
  · intro scheduler action next _ watched _ taken
    exact watched.step taken

/-- A Processer that sleeps on an empty semaphore has an empty queue, or a producer is
about to post. -/
theorem no_lost_wakeup (reachable : (machine n Fiber Producer).Reachable scheduler)
    (p : Fin n) (waiting : scheduler.position p = .wait) (blocked : scheduler.sem p = 0) :
    (scheduler.que p).emptyRelax = true ∨
      ∃ producer, (scheduler.submission producer).Delivers p := by
  have watching : (scheduler.position p).watching = true := by
    rw [waiting]
    rfl
  rcases watched_of_reachable reachable p watching with empty | posted | delivering
  · exact .inl empty
  · omega
  · exact .inr delivering

/-- A fiber pushed after the Processer went to sleep. -/
theorem no_lost_wakeup_after_push :
    ∃ scheduler : Scheduler 1 Nat Nat, scheduler.position 0 = .wait ∧ scheduler.sem 0 = 0 ∧
      (scheduler.que 0).emptyRelax = false ∧
      ∃ producer, (scheduler.submission producer).Delivers 0 := by
  have starts : (machine 1 Nat Nat).initial (start 1 Nat Nat) := rfl
  rcases Machine.exists_reachable_of_run (machine 1 Nat Nat) starts
    [.run 0, .balance 0 0, .run 0, .addCallback 3 7 0, .proceed 3]
    (fun scheduler => scheduler.position 0 == .wait && scheduler.sem 0 == 0 &&
      !(scheduler.que 0).emptyRelax) (by decide)
    with ⟨scheduler, reachable, passes⟩
  simp only [Bool.and_eq_true, beq_iff_eq, Bool.not_eq_true'] at passes
  rcases passes with ⟨⟨waiting, blocked⟩, queued⟩
  refine ⟨scheduler, waiting, blocked, queued, ?_⟩
  rcases no_lost_wakeup reachable 0 waiting blocked with empty | delivering
  · rw [queued] at empty
    cases empty
  · exact delivering

end Scheduler

end FiberNet
