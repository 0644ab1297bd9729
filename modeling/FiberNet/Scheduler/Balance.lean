import FiberNet.Scheduler.Scheduler

/-! # Stealing fibers

One call of `Scheduler::balance` while no other thread acts. The fibers it moves are taken
from the Processer that calls it, not from the one with the most load.
-/

namespace FiberNet

namespace Balance

variable {n : Nat} {Fiber Producer : Type}

/-- `Processer::steal`. -/
def steal (scheduler : Scheduler n Fiber Producer) (prc : Fin n) (k : Nat) :
    Scheduler n Fiber Producer × List Fiber :=
  let (fibers, que) := (scheduler.que prc).fetchFibers k
  if fibers.length ≠ 0 then
    ((scheduler.setQue prc que).addPayLoad prc (-fibers.length), fibers)
  else (scheduler.setQue prc que, fibers)

/-- `Processer::store`. What `addFibers` leaves is dropped. -/
def store (scheduler : Scheduler n Fiber Producer) (prc : Fin n) (fibers : List Fiber) :
    Scheduler n Fiber Producer :=
  let (que, nr, _) := (scheduler.que prc).addFibers (fibers.map some)
  (scheduler.setQue prc que).addPayLoad prc nr

/-- `Scheduler::getMaxPayLoad`: the last one of the largest loads. -/
def getMaxPayLoad (scheduler : Scheduler n Fiber Producer) : Option (Fin n) :=
  (List.finRange n).foldl (fun prc other =>
    match prc with
    | none => some other
    | some prc =>
        some (if scheduler.payLoad prc > scheduler.payLoad other then prc else other)) none

/-- `Scheduler::balance` on the thread of `prc`. -/
def balance (scheduler : Scheduler n Fiber Producer) (prc : Fin n) :
    Scheduler n Fiber Producer × Int :=
  if n = 1 then (scheduler, 0)
  else
    match getMaxPayLoad scheduler with
    | none => (scheduler, 0)
    | some maxPrc =>
        if maxPrc = prc then (scheduler, 0)
        else
          let (scheduler, fibers) :=
            steal scheduler prc (Scheduler.stealSize (scheduler.payLoad maxPrc))
          (store scheduler prc fibers, fibers.length)

/-- An idle Processer beside one that has fibers to give away. -/
structure Unbalanced (scheduler : Scheduler n Fiber Producer) (prc maxPrc : Fin n) : Prop where
  several : 2 ≤ n
  idle : (scheduler.que prc).emptyRelax = true
  most : getMaxPayLoad scheduler = some maxPrc
  other : maxPrc ≠ prc
  queued : 2 ≤ (scheduler.que maxPrc).normal.length
  loaded : 2 ≤ scheduler.payLoad maxPrc
  enough : scheduler.payLoad maxPrc / 2 ≤ (scheduler.que maxPrc).normal.length

/-- Half of the load of `maxPrc` moves from the front of its queue to `prc`. -/
structure Balances (scheduler : Scheduler n Fiber Producer) (prc maxPrc : Fin n) : Prop where
  count : (balance scheduler prc).2 = scheduler.payLoad maxPrc / 2
  thief : (balance scheduler prc).1.que prc =
    { scheduler.que prc with
      normal := (scheduler.que prc).normal ++
        (scheduler.que maxPrc).normal.take (scheduler.payLoad maxPrc / 2).toNat }
  victim : (balance scheduler prc).1.que maxPrc =
    { scheduler.que maxPrc with
      normal := (scheduler.que maxPrc).normal.drop (scheduler.payLoad maxPrc / 2).toNat }
  queues : ∀ third, third ≠ prc → third ≠ maxPrc →
    (balance scheduler prc).1.que third = scheduler.que third
  thiefLoad : (balance scheduler prc).1.payLoad prc =
    scheduler.payLoad prc + scheduler.payLoad maxPrc / 2
  victimLoad : (balance scheduler prc).1.payLoad maxPrc =
    scheduler.payLoad maxPrc - scheduler.payLoad maxPrc / 2
  loads : ∀ third, third ≠ prc → third ≠ maxPrc →
    (balance scheduler prc).1.payLoad third = scheduler.payLoad third

theorem steal_empty {scheduler : Scheduler n Fiber Producer} {prc : Fin n}
    (empty : (scheduler.que prc).normal = []) (k : Nat) :
    steal scheduler prc k = (scheduler, []) := by
  have nothing : (scheduler.que prc).fetchFibers k = ([], scheduler.que prc) := by
    rw [WorkQueue.fetchFibers_eq, empty, List.take_nil, List.drop_nil, ← empty]
  rw [steal, nothing]
  dsimp only
  rw [if_neg (not_not.mpr List.length_nil), Scheduler.setQue, Function.update_eq_self]

theorem store_nil (scheduler : Scheduler n Fiber Producer) (prc : Fin n) :
    store scheduler prc [] = scheduler := by
  have nothing : (scheduler.que prc).addFibers (([] : List Fiber).map some) =
      (scheduler.que prc, 0, []) := if_pos (.inr rfl)
  rw [store, nothing]
  simp [Scheduler.setQue, Scheduler.addPayLoad]

/-- An idle Processer gets nothing from any other, whatever the loads are. -/
theorem balance_idle {scheduler : Scheduler n Fiber Producer} {prc : Fin n}
    (empty : (scheduler.que prc).normal = []) : balance scheduler prc = (scheduler, 0) := by
  unfold balance
  split
  · rfl
  · split
    · rfl
    · split
      · rfl
      · rw [steal_empty empty]
        dsimp only
        rw [store_nil]
        rfl

theorem position_goTo (scheduler : Scheduler n Fiber Producer) (prc : Fin n)
    (position : Position Fiber) : (scheduler.goTo prc position).position prc = position :=
  Function.update_self _ _ _

section

variable [DecidableEq Fiber] [DecidableEq Producer]

/-- What a run of `prc` alone leaves: the queues and loads, and where `prc` is. -/
structure Leaves (scheduler after : Scheduler n Fiber Producer) (prc : Fin n)
    (position : Position Fiber) (actions : List (SchedulerAction n Fiber Producer)) : Prop where
  ran : ∃ final, (Scheduler.machine n Fiber Producer).run scheduler actions = some final ∧
    final.que = after.que ∧ final.payLoad = after.payLoad ∧ final.position prc = position

theorem Leaves.step {scheduler next after : Scheduler n Fiber Producer} {prc : Fin n}
    {position : Position Fiber} {action : SchedulerAction n Fiber Producer}
    {actions : List (SchedulerAction n Fiber Producer)}
    (taken : scheduler.step action = some next) (leaves : Leaves next after prc position actions) :
    Leaves scheduler after prc position (action :: actions) := by
  rcases leaves.ran with ⟨final, ran, rest⟩
  refine ⟨final, ?_, rest⟩
  rw [Machine.run, Scheduler.machine]
  dsimp only
  rw [taken]
  exact ran

theorem leaves_nil {scheduler after : Scheduler n Fiber Producer} {prc : Fin n}
    {position : Position Fiber} (que : scheduler.que = after.que)
    (payLoad : scheduler.payLoad = after.payLoad) (at_end : scheduler.position prc = position) :
    Leaves scheduler after prc position [] :=
  ⟨scheduler, rfl, que, payLoad, at_end⟩

/-- Only the queues and the loads count. -/
theorem Leaves.congr {scheduler after other : Scheduler n Fiber Producer} {prc : Fin n}
    {position : Position Fiber} {actions : List (SchedulerAction n Fiber Producer)}
    (leaves : Leaves scheduler after prc position actions) (que : after.que = other.que)
    (payLoad : after.payLoad = other.payLoad) : Leaves scheduler other prc position actions := by
  rcases leaves.ran with ⟨final, ran, ran_que, ran_load, at_end⟩
  exact ⟨final, ran, ran_que.trans que, ran_load.trans payLoad, at_end⟩

theorem run_store {scheduler : Scheduler n Fiber Producer} {prc : Fin n} {fibers : List Fiber}
    (position : scheduler.position prc = .store fibers) :
    Leaves scheduler (store scheduler prc fibers) prc
      (if 0 < fibers.length then .fetch else .testStopping false) [.run prc, .run prc] := by
  apply Leaves.step
  · rw [Scheduler.step, Scheduler.run, position]
  apply Leaves.step
  · rw [Scheduler.step, Scheduler.run, position_goTo]
  exact leaves_nil rfl rfl (position_goTo _ _ _)

/-- The machine's `steal` and `store`, behind the choice of `maxPrc`. -/
theorem run_steal (scheduler : Scheduler n Fiber Producer) (prc : Fin n) (k : Nat) :
    ∃ turns, Leaves (scheduler.goTo prc (.steal k))
      (store (steal scheduler prc k).1 prc (steal scheduler prc k).2) prc
      (if 0 < (steal scheduler prc k).2.length then .fetch else .testStopping false)
      (List.replicate turns (.run prc)) := by
  rcases fetched : (scheduler.que prc).fetchFibers k with ⟨fibers, que⟩
  have taken : (scheduler.goTo prc (.steal k)).step (.run prc) =
      some (((scheduler.goTo prc (.steal k)).setQue prc que).goTo prc
        (if fibers = [] then .store [] else .subtractStolen fibers)) := by
    rw [Scheduler.step, Scheduler.run, position_goTo]
    dsimp only
    rw [show (scheduler.goTo prc (.steal k)).que = scheduler.que from rfl, fetched]
  cases fibers with
  | nil =>
      have stolen : steal scheduler prc k = (scheduler.setQue prc que, []) := by
        rw [steal, fetched]
        rfl
      rw [stolen]
      have stored := run_store
        (position_goTo ((scheduler.goTo prc (.steal k)).setQue prc que) prc (.store []))
      exact ⟨3, Leaves.step taken (stored.congr rfl rfl)⟩
  | cons fiber fibers =>
      have stolen : steal scheduler prc k =
          ((scheduler.setQue prc que).addPayLoad prc (-(fiber :: fibers).length),
            fiber :: fibers) := by
        rw [steal, fetched]
        rfl
      rw [stolen]
      have subtracts := position_goTo ((scheduler.goTo prc (.steal k)).setQue prc que) prc
        (.subtractStolen (fiber :: fibers))
      have stored := run_store (position_goTo
        ((((scheduler.goTo prc (.steal k)).setQue prc que).goTo prc
          (.subtractStolen (fiber :: fibers))).addPayLoad prc (-(fiber :: fibers).length)) prc
            (.store (fiber :: fibers)))
      refine ⟨4, Leaves.step taken (Leaves.step ?_ (stored.congr rfl rfl))⟩
      rw [if_neg (List.cons_ne_nil fiber fibers), Scheduler.step, Scheduler.run, subtracts]

/-- The machine's steps of `prc` alone, from its call of `balance` on. -/
theorem run_balance {scheduler : Scheduler n Fiber Producer} {prc maxPrc : Fin n}
    (position : scheduler.position prc = .balance)
    (most : getMaxPayLoad scheduler = some maxPrc) :
    ∃ turns, Leaves scheduler (balance scheduler prc).1 prc
      (if 0 < (balance scheduler prc).2 then .fetch else .testStopping false)
      (.balance prc maxPrc :: List.replicate turns (.run prc)) := by
  by_cases alone : n = 1 ∨ maxPrc = prc
  · have same : balance scheduler prc = (scheduler, 0) := by
      unfold balance
      rcases alone with one | self
      · rw [if_pos one]
      · rw [most]
        simp [self]
    have chosen : scheduler.step (.balance prc maxPrc) =
        some (scheduler.goTo prc (.testStopping false)) := by
      rw [Scheduler.step, Scheduler.balance, position]
      exact if_pos alone
    rw [same]
    exact ⟨0, Leaves.step chosen (leaves_nil rfl rfl (position_goTo _ _ _))⟩
  · rcases not_or.mp alone with ⟨several, other⟩
    have chosen : scheduler.step (.balance prc maxPrc) =
        some (scheduler.goTo prc (.steal (Scheduler.stealSize (scheduler.payLoad maxPrc)))) := by
      rw [Scheduler.step, Scheduler.balance, position]
      exact if_neg alone
    have called : balance scheduler prc =
        (store (steal scheduler prc (Scheduler.stealSize (scheduler.payLoad maxPrc))).1 prc
          (steal scheduler prc (Scheduler.stealSize (scheduler.payLoad maxPrc))).2,
        ((steal scheduler prc (Scheduler.stealSize (scheduler.payLoad maxPrc))).2.length : Int)) := by
      unfold balance
      rw [if_neg several, most]
      dsimp only
      rw [if_neg other]
    rw [called]
    simp only [Int.natCast_pos]
    rcases run_steal scheduler prc (Scheduler.stealSize (scheduler.payLoad maxPrc)) with
      ⟨turns, leaves⟩
    exact ⟨turns, Leaves.step chosen leaves⟩

end

theorem normal_of_idle {que : WorkQueue Fiber} (idle : que.emptyRelax = true) :
    que.normal = [] := by
  simp only [WorkQueue.emptyRelax, Bool.and_eq_true, List.isEmpty_iff] at idle
  exact idle.1.2

/-- No idle Processer ever gets its share. -/
theorem never_balances {scheduler : Scheduler n Fiber Producer} {prc maxPrc : Fin n}
    (unbalanced : Unbalanced scheduler prc maxPrc) : ¬ Balances scheduler prc maxPrc := by
  intro balances
  have count := balances.count
  have loaded := unbalanced.loaded
  rw [balance_idle (normal_of_idle unbalanced.idle)] at count
  dsimp only at count
  omega

/-- Two Processers, the second with two fibers. -/
def lopsided : Scheduler 2 Nat Unit :=
  { Scheduler.start 2 Nat Unit with
    que := fun prc => if prc = 0 then {} else { normal := [1, 2] }
    payLoad := fun prc => if prc = 0 then 0 else 2 }

theorem unbalanced_lopsided : Unbalanced lopsided 0 1 where
  several := by decide
  idle := rfl
  most := by decide
  other := by decide
  queued := by decide
  loaded := by decide
  enough := by decide

theorem never_balances_lopsided : Unbalanced lopsided 0 1 ∧ ¬ Balances lopsided 0 1 :=
  ⟨unbalanced_lopsided, never_balances unbalanced_lopsided⟩

/-- One fiber should move and none does. -/
theorem lopsided_stays :
    (balance lopsided 0).2 = 0 ∧ ((balance lopsided 0).1.que 0).normal = [] ∧
      ((balance lopsided 0).1.que 1).normal = [1, 2] ∧ ¬ Balances lopsided 0 1 := by
  refine ⟨by decide, by decide, by decide, fun balances => ?_⟩
  have count := balances.count
  revert count
  decide

end Balance

end FiberNet
