import FiberNet.Foundation.Machine
import FiberNet.Scheduler.WorkQueue
import Mathlib.Data.List.ReduceOption

/-! # Inserting many fibers at once

`addFibers` leaves its iterator on the fiber that used up the budget, and the loop for the
fibers that are left starts there. A budget of zero wraps around.
-/

namespace FiberNet

inductive WorkQueueAction (Fiber : Type)
  | addFiber (fiber : Option Fiber) (prio : Priority)
  | addFibers (fibers : List (Option Fiber)) (prio : Priority)
  | fetchFiber
  | fetchFiberPrio (prio : Priority)
  | fetchFibers (nr : Nat) (prio : Priority)
  deriving DecidableEq, Repr

namespace WorkQueue

variable {Fiber : Type}

def step (que : WorkQueue Fiber) : WorkQueueAction Fiber → Option (WorkQueue Fiber)
  | .addFiber fiber prio => some (que.addFiber fiber prio).1
  | .addFibers fibers prio => some (que.addFibers fibers prio).1
  | .fetchFiber => some (que.fetchFiber.elim que (·.2.2))
  | .fetchFiberPrio prio => some ((que.fetchFiberPrio prio).elim que (·.2))
  | .fetchFibers nr prio => some (que.fetchFibers nr prio).2

/-- The constructor. -/
def new (Fiber : Type) (limit : UInt64) : WorkQueue Fiber where
  limit := limit.toNat

def machine (Fiber : Type) : Machine (WorkQueue Fiber) (WorkQueueAction Fiber) where
  initial que := ∃ limit, que = new Fiber limit
  step := step

@[simp] theorem queue_setQueue_same {prio : Priority} (below : prio ≠ .none)
    (que : WorkQueue Fiber) (fibers : List Fiber) : (que.setQueue prio fibers).queue prio = fibers := by
  cases prio with
  | none => exact absurd rfl below
  | _ => rfl

theorem queue_setQueue_other {prio other : Priority} (different : other ≠ prio)
    (que : WorkQueue Fiber) (fibers : List Fiber) :
    (que.setQueue prio fibers).queue other = que.queue other := by
  cases prio <;> cases other <;> first | rfl | exact absurd rfl different

@[simp] theorem limit_setQueue (que : WorkQueue Fiber) (prio : Priority) (fibers : List Fiber) :
    (que.setQueue prio fibers).limit = que.limit := by
  cases prio <;> rfl

/-! ## The insertion loop -/

theorem addLoop_within : ∀ (fibers : List (Option Fiber)) (nFiber : Nat) (queue : List Fiber)
    (res : Nat), fibers.reduceOption.length < nFiber →
    addLoop fibers nFiber queue res =
      (queue ++ fibers.reduceOption, res + fibers.reduceOption.length, []) := by
  intro fibers
  induction fibers with
  | nil => intro nFiber queue res _; simp [addLoop]
  | cons head fibers induction =>
      intro nFiber queue res within
      cases head with
      | none => exact induction nFiber queue res within
      | some fiber =>
          rw [List.reduceOption_cons_of_some, List.length_cons] at within ⊢
          have predecessor : decrement nFiber = nFiber - 1 := if_neg (by omega)
          rw [addLoop, predecessor, if_neg (by omega), induction _ _ _ (by omega),
            List.append_assoc, List.singleton_append, Nat.add_assoc, Nat.add_comm 1]

/-- The fiber that uses up the budget is queued and left. -/
theorem addLoop_exhausted : ∀ (fibers : List (Option Fiber)) (nFiber : Nat)
    (queue : List Fiber) (res : Nat), 0 < nFiber → nFiber ≤ fibers.reduceOption.length →
    (addLoop fibers nFiber queue res).2.2.reduceOption =
      fibers.reduceOption.drop (nFiber - 1) := by
  intro fibers
  induction fibers with
  | nil =>
      intro nFiber queue res positive short
      rw [List.reduceOption_nil, List.length_nil] at short
      omega
  | cons head fibers induction =>
      intro nFiber queue res positive short
      cases head with
      | none => exact induction nFiber queue res positive short
      | some fiber =>
          rw [List.reduceOption_cons_of_some, List.length_cons] at short
          have predecessor : decrement nFiber = nFiber - 1 := if_neg (by omega)
          rw [addLoop, predecessor]
          split
          · rename_i last
            rw [last, List.drop_zero]
          · rw [induction _ _ _ (by omega) (by omega),
              List.reduceOption_cons_of_some]
            rw [show nFiber - 1 = nFiber - 1 - 1 + 1 by omega, List.drop_succ_cons]
            rfl

theorem addLoop_queue : ∀ (fibers : List (Option Fiber)) (nFiber : Nat) (queue : List Fiber)
    (res : Nat), 0 < nFiber → fibers.reduceOption.length ≤ nFiber →
    (addLoop fibers nFiber queue res).1 = queue ++ fibers.reduceOption := by
  intro fibers
  induction fibers with
  | nil => intro _ queue _ _ _; exact (List.append_nil queue).symm
  | cons head fibers induction =>
      intro nFiber queue res positive enough
      cases head with
      | none => exact induction nFiber queue res positive enough
      | some fiber =>
          rw [List.reduceOption_cons_of_some, List.length_cons] at enough
          have predecessor : decrement nFiber = nFiber - 1 := if_neg (by omega)
          rw [addLoop, predecessor, List.reduceOption_cons_of_some]
          split
          · have none_left : fibers.reduceOption = [] :=
              List.eq_nil_of_length_eq_zero (by omega)
            rw [none_left]
          · rw [induction _ _ _ (by omega) (by omega), List.append_assoc, List.singleton_append]

theorem addLoop_null : ∀ {fibers : List (Option Fiber)} {nFiber : Nat} {queue : List Fiber}
    {res : Nat}, fibers.reduceOption = [] →
    addLoop fibers nFiber queue res = (queue, res, []) := by
  intro fibers
  induction fibers with
  | nil => intro _ _ _ _; rfl
  | cons head fibers induction =>
      intro nFiber queue res null
      cases head with
      | none => exact induction null
      | some fiber => cases null

theorem le_addLoop : ∀ (fibers : List (Option Fiber)) (nFiber : Nat) (queue : List Fiber)
    (res : Nat), res ≤ (addLoop fibers nFiber queue res).2.1 := by
  intro fibers
  induction fibers with
  | nil => intro _ _ res; exact Nat.le_refl res
  | cons head fibers induction =>
      intro nFiber queue res
      cases head with
      | none => exact induction nFiber queue res
      | some fiber =>
          rw [addLoop]
          split
          · exact Nat.le_succ res
          · exact Nat.le_trans (Nat.le_succ res) (induction _ _ _)

theorem lt_addLoop : ∀ {fibers : List (Option Fiber)} (nFiber : Nat) (queue : List Fiber)
    (res : Nat), fibers.reduceOption ≠ [] → res < (addLoop fibers nFiber queue res).2.1 := by
  intro fibers
  induction fibers with
  | nil => intro _ _ _ some; exact absurd rfl some
  | cons head fibers induction =>
      intro nFiber queue res some
      cases head with
      | none => exact induction nFiber queue res some
      | some fiber =>
          rw [addLoop]
          split
          · exact Nat.lt_succ_self res
          · exact Nat.lt_of_lt_of_le (Nat.lt_succ_self res) (le_addLoop _ _ _ _)

/-! ## One call -/

/-- How many fibers of a list of `count` a queue has room for: `nFiber` before the loop. -/
def room (que : WorkQueue Fiber) (prio : Priority) (count : Nat) : Nat :=
  if que.isLimited then min count (que.limit - (que.queue prio).length) else count

/-- `addFibers` queues the fibers that fit, leaves exactly the others and returns how many
it has queued. -/
structure Inserts (que : WorkQueue Fiber) (fibers : List (Option Fiber)) (prio : Priority) :
    Prop where
  queued : (que.addFibers fibers prio).1 =
    que.setQueue prio (que.queue prio ++
      fibers.reduceOption.take (que.room prio fibers.reduceOption.length))
  added : (que.addFibers fibers prio).2.1 = que.room prio fibers.reduceOption.length
  left : (que.addFibers fibers prio).2.2 =
    fibers.reduceOption.drop (que.room prio fibers.reduceOption.length)

/-- No queue is longer than the limit. -/
def WithinLimit (que : WorkQueue Fiber) : Prop :=
  que.isLimited = true → ∀ prio, (que.queue prio).length ≤ que.limit

/-- The list has a null entry or nothing but null entries, and its fibers leave a place
free. -/
def Fits (que : WorkQueue Fiber) (fibers : List (Option Fiber)) (prio : Priority) : Prop :=
  fibers.reduceOption = [] ∨
    (none ∈ fibers ∧
      (que.isLimited = true →
        (que.queue prio).length + fibers.reduceOption.length < que.limit))

theorem addFibers_nonempty {que : WorkQueue Fiber} {fibers : List (Option Fiber)}
    {prio : Priority} (size : que.limit < 2 ^ 64) (within : que.WithinLimit)
    (below : prio ≠ .none) (nonempty : fibers ≠ []) :
    que.addFibers fibers prio =
      (que.setQueue prio
          (addLoop fibers (que.room prio fibers.length) (que.queue prio) 0).1,
        (addLoop fibers (que.room prio fibers.length) (que.queue prio) 0).2.1,
        (addLoop fibers (que.room prio fibers.length) (que.queue prio) 0).2.2.reduceOption) := by
  have space : (if que.isLimited then
      min fibers.length ((que.limit + 2 ^ 64 - (que.queue prio).length) % 2 ^ 64)
      else fibers.length) = que.room prio fibers.length := by
    unfold room
    split
    · rename_i limited
      have fits := within limited prio
      congr 1
      omega
    · rfl
  rw [addFibers, if_neg (by simp [below, nonempty])]
  dsimp only
  rw [space]
  rfl

theorem fits_iff {que : WorkQueue Fiber} {fibers : List (Option Fiber)} {prio : Priority} :
    que.Fits fibers prio ↔
      fibers.reduceOption = [] ∨
        fibers.reduceOption.length < que.room prio fibers.length := by
  unfold Fits room
  rw [← List.reduceOption_length_lt_iff]
  split
  · rename_i limited
    simp only [limited, forall_const]
    exact or_congr_right (by omega)
  · rename_i unlimited
    simp only [unlimited, Bool.false_eq_true, false_implies, and_true]

theorem room_of_lt {que : WorkQueue Fiber} {prio : Priority} {count total : Nat}
    (within : count < que.room prio total) : que.room prio count = count := by
  unfold room at within ⊢
  split at within <;> rename_i limited
  · rw [if_pos limited]
    omega
  · rw [if_neg limited]

theorem room_of_le {que : WorkQueue Fiber} {prio : Priority} {count total : Nat}
    (few : count ≤ total) (exhausted : que.room prio total ≤ count) :
    que.room prio count = que.room prio total := by
  unfold room at exhausted ⊢
  split at exhausted <;> rename_i limited
  · rw [if_pos limited, if_pos limited]
    omega
  · rw [if_neg limited, if_neg limited]
    omega

@[simp] theorem setQueue_queue (que : WorkQueue Fiber) (prio : Priority) :
    que.setQueue prio (que.queue prio) = que := by
  cases prio <;> rfl

theorem inserts_nil (que : WorkQueue Fiber) (prio : Priority) : que.Inserts [] prio := by
  have called : que.addFibers [] prio = (que, 0, []) := if_pos (.inr rfl)
  have nothing : que.room prio 0 = 0 := by
    unfold room
    split
    · exact Nat.zero_min _
    · rfl
  constructor
  · rw [called, List.reduceOption_nil, List.take_nil, List.append_nil, setQueue_queue]
  · rw [called, List.reduceOption_nil, List.length_nil, nothing]
  · rw [called, List.reduceOption_nil, List.drop_nil]

/-- A call inserts as it should exactly where its fibers do not use up the budget. -/
theorem inserts_iff {que : WorkQueue Fiber} {fibers : List (Option Fiber)} {prio : Priority}
    (size : que.limit < 2 ^ 64) (within : que.WithinLimit) (below : prio ≠ .none) :
    que.Inserts fibers prio ↔ que.Fits fibers prio := by
  have few := List.reduceOption_length_le fibers
  rcases eq_or_ne fibers [] with rfl | nonempty
  · exact iff_of_true (inserts_nil que prio) (.inl rfl)
  have called := addFibers_nonempty size within below nonempty
  rw [fits_iff]
  rcases Nat.lt_or_ge fibers.reduceOption.length (que.room prio fibers.length) with
    left | exhausted
  · refine iff_of_true ?_ (.inr left)
    have taken := room_of_lt left
    rw [addLoop_within fibers _ _ _ left] at called
    constructor
    · rw [called, taken, List.take_length]
    · rw [called, taken, Nat.zero_add]
    · rw [called, taken, List.drop_length]
      rfl
  · have taken := room_of_le few exhausted
    rcases eq_or_ne fibers.reduceOption [] with none_left | some
    · refine iff_of_true ?_ (.inl none_left)
      have nothing : que.room prio fibers.length = 0 := by
        rw [none_left, List.length_nil] at exhausted
        exact Nat.le_zero.mp exhausted
      rw [addLoop_null none_left] at called
      constructor
      · rw [called, none_left, List.take_nil, List.append_nil]
      · rw [called, taken, nothing]
      · rw [called, none_left, List.drop_nil]
        rfl
    · refine iff_of_false ?_ (not_or.mpr ⟨some, Nat.not_lt.mpr exhausted⟩)
      intro inserts
      rcases Nat.eq_zero_or_pos (que.room prio fibers.length) with full | positive
      · have more := lt_addLoop 0 (que.queue prio) 0 some
        have added : (addLoop fibers 0 (que.queue prio) 0).2.1 = 0 := by
          have room := inserts.added
          rwa [called, taken, full] at room
        exact absurd added (Nat.ne_of_gt more)
      · have left := congrArg List.length inserts.left
        rw [called, addLoop_exhausted _ _ _ _ positive exhausted, taken, List.length_drop,
          List.length_drop] at left
        omega

/-! ## Runs -/

theorem queue_none (que : WorkQueue Fiber) : que.queue .none = [] := rfl

theorem isLimited_of_limit {que next : WorkQueue Fiber} (limit : next.limit = que.limit) :
    next.isLimited = que.isLimited := by
  rw [isLimited, isLimited, limit]

/-- A queue stays within the limit if the one that changes does. -/
theorem WithinLimit.setQueue {que : WorkQueue Fiber} (within : que.WithinLimit) {prio : Priority}
    {fibers : List Fiber} (fits : que.isLimited = true → fibers.length ≤ que.limit) :
    (que.setQueue prio fibers).WithinLimit := by
  intro limited other
  rw [isLimited_of_limit (limit_setQueue que prio fibers)] at limited
  rw [limit_setQueue]
  by_cases same : other = prio
  · subst same
    by_cases below : other = .none
    · subst below
      exact Nat.zero_le _
    · rw [queue_setQueue_same below]
      exact fits limited
  · rw [queue_setQueue_other same]
    exact within limited other

theorem addFiber_cases (que : WorkQueue Fiber) (fiber : Option Fiber) (prio : Priority) :
    (que.addFiber fiber prio).1 = que ∨
      ∃ added, fiber = some added ∧ prio ≠ .none ∧
        (que.isLimited = true → (que.queue prio).length + 1 ≤ que.limit) ∧
        (que.addFiber fiber prio).1 = que.setQueue prio (que.queue prio ++ [added]) := by
  cases fiber with
  | none => exact .inl (by cases prio <;> rfl)
  | some added =>
      by_cases full : que.isLimited ∧ (que.queue prio).length + 1 > que.limit
      · exact .inl (by cases prio <;> simp [addFiber, full])
      · cases prio with
        | none => exact .inl rfl
        | _ =>
            refine .inr ⟨added, rfl, Priority.noConfusion, fun limited => ?_, ?_⟩
            · exact Nat.le_of_not_lt fun more => full ⟨limited, more⟩
            · simp only [addFiber, if_neg full]

theorem fetchFiber_cases {que rest : WorkQueue Fiber} {prio : Priority} {fiber : Fiber}
    (fetched : que.fetchFiber = some (prio, fiber, rest)) :
    prio ≠ .none ∧ ∃ queue, que.queue prio = fiber :: queue ∧ rest = que.setQueue prio queue := by
  rcases que with ⟨limit, low, normal, emerg⟩
  cases low <;> cases normal <;> cases emerg <;>
    simp only [fetchFiber, Option.some.injEq, Prod.mk.injEq, reduceCtorEq] at fetched <;>
    rcases fetched with ⟨rfl, rfl, rfl⟩ <;> exact ⟨Priority.noConfusion, _, rfl, rfl⟩

theorem fetchFiberPrio_cases {que rest : WorkQueue Fiber} {prio : Priority} {fiber : Fiber}
    (fetched : que.fetchFiberPrio prio = some (fiber, rest)) :
    ∃ queue, que.queue prio = fiber :: queue ∧ rest = que.setQueue prio queue := by
  unfold fetchFiberPrio at fetched
  split at fetched
  · cases fetched
  · rename_i queue held
    cases fetched
    exact ⟨queue, held, rfl⟩

theorem fetchFibers_cases (que : WorkQueue Fiber) (nr : Nat) (prio : Priority) :
    que.fetchFibers nr prio =
      ((que.queue prio).take nr, que.setQueue prio ((que.queue prio).drop nr)) := by
  unfold fetchFibers
  split
  · rename_i bottom
    subst bottom
    rw [queue_none, List.take_nil]
    rfl
  · rw [fetchLoop_eq]

/-- The calls of `addFibers` fit. -/
def FitsIn (que : WorkQueue Fiber) : WorkQueueAction Fiber → Prop
  | .addFibers fibers prio => prio ≠ .none → que.Fits fibers prio
  | _ => True

/-- The calls of `addFibers` insert as they should, and no queue grows beyond the limit. -/
structure BulkInserts (que : WorkQueue Fiber) (action : WorkQueueAction Fiber) : Prop where
  inserts : ∀ fibers prio, action = .addFibers fibers prio → prio ≠ .none →
    que.Inserts fibers prio
  within : ∀ next, que.step action = some next → next.WithinLimit

theorem step_within {que next : WorkQueue Fiber} {action : WorkQueueAction Fiber}
    (size : que.limit < 2 ^ 64) (within : que.WithinLimit) (fits : que.FitsIn action)
    (taken : que.step action = some next) : next.WithinLimit ∧ next.limit = que.limit := by
  cases action with
  | addFiber fiber prio =>
      cases taken
      rcases addFiber_cases que fiber prio with same | ⟨added, -, -, room, queued⟩
      · rw [same]
        exact ⟨within, rfl⟩
      · rw [queued]
        refine ⟨within.setQueue fun limited => ?_, limit_setQueue _ _ _⟩
        rw [List.length_append]
        exact room limited
  | addFibers fibers prio =>
      cases taken
      by_cases below : prio = .none
      · rw [show (que.addFibers fibers prio).1 = que by rw [addFibers, if_pos (.inl below)]]
        exact ⟨within, rfl⟩
      · rw [((inserts_iff size within below).mpr (fits below)).queued]
        refine ⟨within.setQueue fun limited => ?_, limit_setQueue _ _ _⟩
        have held := within limited prio
        rw [List.length_append, List.length_take, room, if_pos limited]
        omega
  | fetchFiber =>
      cases taken
      cases fetched : que.fetchFiber with
      | none => exact ⟨within, rfl⟩
      | some result =>
          rcases result with ⟨prio, fiber, rest⟩
          rcases fetchFiber_cases fetched with ⟨-, queue, held, left⟩
          rw [Option.elim_some, left]
          refine ⟨within.setQueue fun limited => ?_, limit_setQueue _ _ _⟩
          have size := within limited prio
          rw [held, List.length_cons] at size
          exact Nat.le_of_succ_le size
  | fetchFiberPrio prio =>
      cases taken
      cases fetched : que.fetchFiberPrio prio with
      | none => exact ⟨within, rfl⟩
      | some result =>
          rcases result with ⟨fiber, rest⟩
          rcases fetchFiberPrio_cases fetched with ⟨queue, held, left⟩
          rw [Option.elim_some, left]
          refine ⟨within.setQueue fun limited => ?_, limit_setQueue _ _ _⟩
          have size := within limited prio
          rw [held, List.length_cons] at size
          exact Nat.le_of_succ_le size
  | fetchFibers nr prio =>
      cases taken
      rw [fetchFibers_cases]
      refine ⟨within.setQueue fun limited => ?_, limit_setQueue _ _ _⟩
      have size := within limited prio
      rw [List.length_drop]
      omega

theorem bulkInserts_iff {que : WorkQueue Fiber} {action : WorkQueueAction Fiber}
    (size : que.limit < 2 ^ 64) (within : que.WithinLimit) :
    que.BulkInserts action ↔ que.FitsIn action := by
  constructor
  · intro inserts
    cases action with
    | addFibers fibers prio =>
        exact fun below =>
          (inserts_iff size within below).mp (inserts.inserts fibers prio rfl below)
    | _ => trivial
  · intro fits
    refine ⟨?_, fun next taken => (step_within size within fits taken).1⟩
    rintro fibers prio rfl below
    exact (inserts_iff size within below).mpr (fits below)

/-- In exactly the runs all of whose `addFibers` calls fit do these insert as they should
and do the queues stay within the limit. -/
theorem bulk_insertion_iff (limit : UInt64) (actions : List (WorkQueueAction Fiber)) :
    (machine Fiber).Meets BulkInserts (new Fiber limit) actions ↔
      (machine Fiber).Meets FitsIn (new Fiber limit) actions := by
  refine @Machine.meets_congr _ _ (machine Fiber) _ _
    (fun que => que.limit < 2 ^ 64 ∧ que.WithinLimit) ?_ ?_ _ actions ?_
  · exact fun sound => bulkInserts_iff sound.1 sound.2
  · intro que action next sound fits taken
    rcases step_within sound.1 sound.2 fits taken with ⟨within, same⟩
    exact ⟨same ▸ sound.1, within⟩
  · refine ⟨limit.toNat_lt, fun _ prio => ?_⟩
    cases prio <;> exact Nat.zero_le _

/-- A fiber is queued and left, and a full queue takes what it has no room for. -/
theorem not_bulk_insertion :
    ((new Nat (-1)).addFibers [some 7]).1.normal = [7] ∧
      ((new Nat (-1)).addFibers [some 7]).2.2 = [7] ∧
      ¬ (machine Nat).Meets BulkInserts (new Nat (-1)) [.addFibers [some 7] .normal] ∧
      ¬ (machine Nat).Meets BulkInserts (new Nat 1)
        [.addFiber (some 1) .normal, .addFibers [some 2, none] .normal] := by
  refine ⟨by decide, by decide, ?_, ?_⟩
  · rintro ⟨inserts, -⟩
    have left := (inserts.inserts _ _ rfl nofun).left
    revert left
    decide
  · rintro ⟨-, later⟩
    have added := ((later _ rfl).1.inserts _ _ rfl nofun).added
    revert added
    decide

end WorkQueue

end FiberNet
