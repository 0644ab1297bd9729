import FiberNet.Scheduler.BulkInsertion

/-! # The order in which fibers leave

The fibers that wait are one list in the order of their arrival. `fetchFiber` looks at the
queues in the order of the enumeration, from the least urgent one on.
-/

namespace FiberNet

/-- The fibers that were added and not taken yet, in the order they were added. -/
@[reducible] def Backlog (Fiber : Type) := List (Priority × Fiber)

namespace Backlog

variable {Fiber : Type}

def ofPriority (prio : Priority) : Backlog Fiber → List Fiber
  | [] => []
  | entry :: backlog =>
      if entry.1 = prio then entry.2 :: ofPriority prio backlog else ofPriority prio backlog

def add (backlog : Backlog Fiber) (prio : Priority) (fibers : List Fiber) : Backlog Fiber :=
  backlog ++ fibers.map fun fiber => (prio, fiber)

/-- Without the first `count` fibers of a priority. -/
def remove (prio : Priority) : Nat → Backlog Fiber → Backlog Fiber
  | 0, backlog => backlog
  | _ + 1, [] => []
  | count + 1, entry :: backlog =>
      if entry.1 = prio then remove prio count backlog
      else entry :: remove prio (count + 1) backlog

/-- The earliest fiber of the most urgent priority that has one. -/
def mostUrgent (backlog : Backlog Fiber) : Option (Priority × Fiber) :=
  [Priority.emerg, .normal, .low].findSome? fun prio =>
    (backlog.ofPriority prio).head?.map fun fiber => (prio, fiber)

theorem ofPriority_append (prio : Priority) (first second : Backlog Fiber) :
    ofPriority prio (first ++ second) = first.ofPriority prio ++ second.ofPriority prio := by
  induction first with
  | nil => rfl
  | cons entry first induction =>
      rw [List.cons_append, ofPriority, ofPriority, induction]
      split <;> rfl

theorem ofPriority_map_same (prio : Priority) (fibers : List Fiber) :
    ofPriority prio (fibers.map fun fiber => (prio, fiber)) = fibers := by
  induction fibers with
  | nil => rfl
  | cons fiber fibers induction => rw [List.map_cons, ofPriority, if_pos rfl, induction]

theorem ofPriority_map_other {prio other : Priority} (different : prio ≠ other)
    (fibers : List Fiber) : ofPriority other (fibers.map fun fiber => (prio, fiber)) = [] := by
  induction fibers with
  | nil => rfl
  | cons fiber fibers induction => rw [List.map_cons, ofPriority, if_neg different, induction]

theorem ofPriority_remove_same (prio : Priority) (count : Nat) (backlog : Backlog Fiber) :
    (backlog.remove prio count).ofPriority prio = (backlog.ofPriority prio).drop count := by
  induction backlog generalizing count with
  | nil => cases count <;> rfl
  | cons entry backlog induction =>
      cases count with
      | zero => rfl
      | succ count =>
          rw [remove, ofPriority]
          split
          · rw [induction, List.drop_succ_cons]
          · rename_i different
            rw [ofPriority, if_neg different, induction]

theorem ofPriority_remove_other {prio other : Priority} (different : other ≠ prio)
    (count : Nat) (backlog : Backlog Fiber) :
    (backlog.remove prio count).ofPriority other = backlog.ofPriority other := by
  induction backlog generalizing count with
  | nil => cases count <;> rfl
  | cons entry backlog induction =>
      cases count with
      | zero => rfl
      | succ count =>
          rw [remove, ofPriority]
          split
          · rename_i same
            rw [if_neg (same ▸ different.symm), induction]
          · rw [ofPriority, induction]

end Backlog

namespace WorkQueue

variable {Fiber : Type}

/-- What remains behind an operation: what was added besides, and without what was taken. -/
def remaining (backlog : Backlog Fiber) (que : WorkQueue Fiber) :
    WorkQueueAction Fiber → Backlog Fiber
  | .addFiber fiber prio =>
      if prio = .none then backlog else backlog.add prio fiber.toList
  | .addFibers fibers prio =>
      if prio = .none then backlog else backlog.add prio fibers.reduceOption
  | .fetchFiber => que.fetchFiber.elim backlog fun fetched => backlog.remove fetched.1 1
  | .fetchFiberPrio prio => backlog.remove prio 1
  | .fetchFibers nr prio => backlog.remove prio nr

/-- An operation takes the fibers that it should take next. -/
def TakesInOrder (state : WorkQueue Fiber × Backlog Fiber) : WorkQueueAction Fiber → Prop
  | .fetchFiber =>
      (state.1.fetchFiber = none ↔ state.1.emptyRelax = true) ∧
        state.1.fetchFiber.map (fun fetched => (fetched.1, fetched.2.1)) = state.2.mostUrgent
  | .fetchFiberPrio prio =>
      (state.1.fetchFiberPrio prio).map (·.1) = (state.2.ofPriority prio).head?
  | .fetchFibers nr prio => (state.1.fetchFibers nr prio).1 = (state.2.ofPriority prio).take nr
  | _ => True

/-- `fetchFiber` is called with fibers of one priority only. -/
def OnePriority (state : WorkQueue Fiber × Backlog Fiber) : WorkQueueAction Fiber → Prop
  | .fetchFiber =>
      ∀ prio other, state.1.queue prio ≠ [] → state.1.queue other ≠ [] → prio = other
  | _ => True

/-- The queues hold the backlog, each its priority. -/
structure Holds (state : WorkQueue Fiber × Backlog Fiber) : Prop where
  unlimited : state.1.Unlimited
  backlog : ∀ prio, state.2.ofPriority prio = state.1.queue prio

theorem Holds.setQueue {que : WorkQueue Fiber} {backlog later : Backlog Fiber}
    (holds : Holds (que, backlog)) {prio : Priority} {fibers : List Fiber}
    (bottom : prio = .none → fibers = []) (same : later.ofPriority prio = fibers)
    (others : ∀ other, other ≠ prio → later.ofPriority other = backlog.ofPriority other) :
    Holds (que.setQueue prio fibers, later) := by
  refine ⟨(limit_setQueue que prio fibers).trans holds.unlimited, fun other => ?_⟩
  by_cases equal : other = prio
  · subst equal
    by_cases below : other = .none
    · rw [same, bottom below]
      subst below
      rfl
    · rw [same, queue_setQueue_same below]
  · rw [others other equal, queue_setQueue_other equal, holds.backlog]

/-- What was added lies behind the rest of its priority. -/
theorem Holds.add {que : WorkQueue Fiber} {backlog : Backlog Fiber}
    (holds : Holds (que, backlog)) {prio : Priority} (below : prio ≠ .none)
    (fibers : List Fiber) :
    Holds (que.setQueue prio (que.queue prio ++ fibers), backlog.add prio fibers) := by
  apply holds.setQueue (absurd · below)
  · rw [Backlog.add, Backlog.ofPriority_append, Backlog.ofPriority_map_same, holds.backlog]
  · intro other different
    rw [Backlog.add, Backlog.ofPriority_append, Backlog.ofPriority_map_other different.symm,
      List.append_nil]

/-- The first of a priority are taken. -/
theorem Holds.remove {que : WorkQueue Fiber} {backlog : Backlog Fiber}
    (holds : Holds (que, backlog)) (prio : Priority) (count : Nat) :
    Holds (que.setQueue prio ((que.queue prio).drop count), backlog.remove prio count) := by
  apply holds.setQueue
  · rintro rfl
    exact List.drop_nil
  · rw [Backlog.ofPriority_remove_same, holds.backlog]
  · intro other different
    exact Backlog.ofPriority_remove_other different count backlog

theorem addFiber_unlimited {que : WorkQueue Fiber} (unlimited : que.Unlimited)
    {prio : Priority} (below : prio ≠ .none) (fiber : Option Fiber) :
    (que.addFiber fiber prio).1 = que.setQueue prio (que.queue prio ++ fiber.toList) := by
  have notLimited : que.limit = noLimit := unlimited
  cases fiber with
  | none =>
      rw [Option.toList_none, List.append_nil, setQueue_queue]
      cases prio <;> rfl
  | some fiber =>
      cases prio with
      | none => exact absurd rfl below
      | _ => simp [addFiber, isLimited, notLimited]

theorem addFibers_unlimited {que : WorkQueue Fiber} (unlimited : que.Unlimited)
    {prio : Priority} (below : prio ≠ .none) (fibers : List (Option Fiber)) :
    (que.addFibers fibers prio).1 =
      que.setQueue prio (que.queue prio ++ fibers.reduceOption) := by
  have notLimited : que.isLimited = false := by simp [isLimited, show que.limit = _ from unlimited]
  rcases eq_or_ne fibers [] with rfl | nonempty
  · rw [List.reduceOption_nil, List.append_nil, setQueue_queue, addFibers, if_pos (.inr rfl)]
  · have few := List.reduceOption_length_le fibers
    rw [addFibers, if_neg (by simp [below, nonempty])]
    simp only [notLimited, Bool.false_eq_true, if_false]
    rw [addLoop_queue fibers _ _ _ (List.length_pos_of_ne_nil nonempty) few]

theorem fetchFiberPrio_eq (que : WorkQueue Fiber) (prio : Priority) :
    (que.fetchFiberPrio prio).map (·.1) = (que.queue prio).head? ∧
      (que.fetchFiberPrio prio).elim que (·.2) =
        que.setQueue prio ((que.queue prio).drop 1) := by
  unfold fetchFiberPrio
  split
  · rename_i empty
    refine ⟨by rw [empty]; rfl, ?_⟩
    rw [empty, List.drop_nil, ← empty, setQueue_queue]
    rfl
  · rename_i queue held
    rw [held]
    exact ⟨rfl, rfl⟩

theorem Holds.step {que next : WorkQueue Fiber} {backlog : Backlog Fiber}
    (holds : Holds (que, backlog)) {action : WorkQueueAction Fiber}
    (taken : que.step action = some next) : Holds (next, remaining backlog que action) := by
  cases action with
  | addFiber fiber prio =>
      cases taken
      rw [remaining]
      split
      · rename_i bottom
        subst bottom
        cases fiber <;> exact holds
      · rename_i below
        rw [addFiber_unlimited holds.unlimited below]
        exact holds.add below _
  | addFibers fibers prio =>
      cases taken
      rw [remaining]
      split
      · rename_i bottom
        rw [addFibers, if_pos (.inl bottom)]
        exact holds
      · rename_i below
        rw [addFibers_unlimited holds.unlimited below]
        exact holds.add below _
  | fetchFiber =>
      cases taken
      rw [remaining]
      cases fetched : que.fetchFiber with
      | none => exact holds
      | some result =>
          rcases result with ⟨prio, fiber, rest⟩
          rcases fetchFiber_cases fetched with ⟨-, queue, held, left⟩
          have removed := holds.remove prio 1
          rw [held] at removed
          rw [Option.elim_some, Option.elim_some, left]
          exact removed
  | fetchFiberPrio prio =>
      cases taken
      rw [(fetchFiberPrio_eq que prio).2]
      exact holds.remove prio 1
  | fetchFibers nr prio =>
      cases taken
      rw [fetchFibers_cases]
      exact holds.remove prio nr

theorem onePriority_iff (que : WorkQueue Fiber) :
    (∀ prio other, que.queue prio ≠ [] → que.queue other ≠ [] → prio = other) ↔
      (que.low = [] ∨ que.normal = []) ∧ (que.low = [] ∨ que.emerg = []) ∧
        (que.normal = [] ∨ que.emerg = []) := by
  constructor
  · intro one
    have apart : ∀ prio other, prio ≠ other → que.queue prio = [] ∨ que.queue other = [] := by
      intro prio other different
      by_contra both
      rcases not_or.mp both with ⟨first, second⟩
      exact different (one prio other first second)
    exact ⟨apart .low .normal nofun, apart .low .emerg nofun, apart .normal .emerg nofun⟩
  · rintro ⟨lowNormal, lowEmerg, normalEmerg⟩ prio other first second
    cases prio <;> cases other <;> simp_all [queue]

/-- The queues are scanned from the wrong end, which shows where two of them hold fibers. -/
theorem takesInOrder_iff {state : WorkQueue Fiber × Backlog Fiber} (holds : Holds state)
    {action : WorkQueueAction Fiber} : TakesInOrder state action ↔ OnePriority state action := by
  rcases state with ⟨que, backlog⟩
  cases action with
  | fetchFiberPrio prio =>
      refine iff_of_true ?_ trivial
      rw [TakesInOrder, (fetchFiberPrio_eq que prio).1, holds.backlog]
  | fetchFibers nr prio =>
      refine iff_of_true ?_ trivial
      rw [TakesInOrder, fetchFibers_cases, holds.backlog]
  | fetchFiber =>
      rw [TakesInOrder, and_iff_right (fetchFiber_eq_none_iff que)]
      rw [OnePriority, onePriority_iff]
      simp only [Backlog.mostUrgent, List.findSome?_cons, List.findSome?_nil, holds.backlog]
      rcases que with ⟨limit, low, normal, emerg⟩
      cases low <;> cases normal <;> cases emerg <;> simp [fetchFiber, queue]
  | addFiber _ _ => exact Iff.rfl
  | addFibers _ _ => exact Iff.rfl

/-- In exactly the runs whose `fetchFiber` calls find fibers of one priority only do the
fibers leave by urgency and, within a priority, in the order they were added. -/
theorem takes_in_order_iff (actions : List (WorkQueueAction Fiber)) :
    ((machine Fiber).track [] remaining).Meets TakesInOrder (new Fiber (-1), []) actions ↔
      ((machine Fiber).track [] remaining).Meets OnePriority (new Fiber (-1), []) actions := by
  refine @Machine.meets_congr _ _ ((machine Fiber).track [] remaining) _ _ Holds ?_ ?_ _
    actions ?_
  · exact fun holds => takesInOrder_iff holds
  · intro state action next holds _ taken
    rcases Option.map_eq_some_iff.mp taken with ⟨que, moved, rfl⟩
    exact holds.step moved
  · refine ⟨rfl, fun prio => ?_⟩
    cases prio <;> rfl

/-- A fiber of low priority leaves before an urgent one. -/
theorem not_takes_in_order :
    ¬ ((machine Nat).track [] remaining).Meets TakesInOrder (new Nat (-1), [])
      [.addFiber (some 1) .low, .addFiber (some 2) .emerg, .fetchFiber] := by
  rintro ⟨-, second⟩
  rcases second _ rfl with ⟨-, third⟩
  rcases third _ rfl with ⟨⟨-, urgent⟩, -⟩
  revert urgent
  decide

end WorkQueue

end FiberNet
