import Mathlib.Algebra.Group.Int.Defs
import Mathlib.Algebra.Group.Nat.Defs
import Mathlib.Data.List.Count
import Mathlib.Logic.Function.Basic

/-! # The work queue of a Processer

`WorkQueue<3>`: one FIFO for each priority under one mutex, so each operation is
one atomic step. A null `Fiber::ptr` is `none`.
-/

namespace FiberNet

/-- In the order of their values. `none` is not a queue. -/
inductive Priority
  | low
  | normal
  | emerg
  | none
  deriving DecidableEq, Repr

/-- `NO_LIMIT`, the largest `size_t`. -/
def noLimit : Nat := 2 ^ 64 - 1

structure WorkQueue (Fiber : Type) where
  limit : Nat := noLimit
  low : List Fiber := []
  normal : List Fiber := []
  emerg : List Fiber := []

namespace WorkQueue

variable {Fiber : Type}

/-- `m_queue[prio]`. -/
def queue (que : WorkQueue Fiber) : Priority → List Fiber
  | .low => que.low
  | .normal => que.normal
  | .emerg => que.emerg
  | .none => []

def setQueue (que : WorkQueue Fiber) (prio : Priority) (fibers : List Fiber) :
    WorkQueue Fiber :=
  match prio with
  | .low => { que with low := fibers }
  | .normal => { que with normal := fibers }
  | .emerg => { que with emerg := fibers }
  | .none => que

def isLimited (que : WorkQueue Fiber) : Bool :=
  que.limit != noLimit

def emptyRelax (que : WorkQueue Fiber) : Bool :=
  que.low.isEmpty && que.normal.isEmpty && que.emerg.isEmpty

def addFiber (que : WorkQueue Fiber) (fiber : Option Fiber)
    (prio : Priority := .normal) : WorkQueue Fiber × Bool :=
  match prio, fiber with
  | .none, _ => (que, false)
  | _, none => (que, false)
  | _, some fiber =>
      if que.isLimited ∧ (que.queue prio).length + 1 > que.limit then (que, false)
      else (que.setQueue prio (que.queue prio ++ [fiber]), true)

/-- `--nFiber` on a `size_t`. -/
def decrement (nFiber : Nat) : Nat :=
  if nFiber = 0 then 2 ^ 64 - 1 else nFiber - 1

/-- The insertion loop of `addFibers`. Besides the new queue and `res`, it
answers what is left from `iter` on: the `break` leaves `iter` on the fiber that
was just pushed. -/
def addLoop : List (Option Fiber) → Nat → List Fiber → Nat →
    List Fiber × Nat × List (Option Fiber)
  | [], _, queue, res => (queue, res, [])
  | none :: rest, nFiber, queue, res => addLoop rest nFiber queue res
  | some fiber :: rest, nFiber, queue, res =>
      if decrement nFiber = 0 then (queue ++ [fiber], res + 1, some fiber :: rest)
      else addLoop rest (decrement nFiber) (queue ++ [fiber]) (res + 1)

/-- `addFibers`: the new queue, the number added and the entries appended to
`left`. -/
def addFibers (que : WorkQueue Fiber) (fibers : List (Option Fiber))
    (prio : Priority := .normal) : WorkQueue Fiber × Nat × List Fiber :=
  if prio = .none ∨ fibers = [] then (que, 0, [])
  else
    let space := (que.limit + 2 ^ 64 - (que.queue prio).length) % 2 ^ 64
    let nFiber := if que.isLimited then min fibers.length space else fibers.length
    let (queue, res, rest) := addLoop fibers nFiber (que.queue prio) 0
    (que.setQueue prio queue, res, rest.filterMap id)

/-- `none` is the answer `Priority::NONE`. -/
def fetchFiber (que : WorkQueue Fiber) : Option (Priority × Fiber × WorkQueue Fiber) :=
  match que.low, que.normal, que.emerg with
  | fiber :: rest, _, _ => some (.low, fiber, { que with low := rest })
  | [], fiber :: rest, _ => some (.normal, fiber, { que with normal := rest })
  | [], [], fiber :: rest => some (.emerg, fiber, { que with emerg := rest })
  | [], [], [] => none

def fetchFiberPrio (que : WorkQueue Fiber) (prio : Priority := .normal) :
    Option (Fiber × WorkQueue Fiber) :=
  match que.queue prio with
  | [] => none
  | fiber :: rest => some (fiber, que.setQueue prio rest)

/-- The loop `while (!empty() && nr--)`: the fibers taken and the rest. -/
def fetchLoop : Nat → List Fiber → List Fiber × List Fiber
  | _, [] => ([], [])
  | 0, queue => ([], queue)
  | nr + 1, fiber :: queue =>
      let (fibers, rest) := fetchLoop nr queue
      (fiber :: fibers, rest)

def fetchFibers (que : WorkQueue Fiber) (nr : Nat) (prio : Priority := .normal) :
    List Fiber × WorkQueue Fiber :=
  if prio = .none then ([], que)
  else
    let (fibers, rest) := fetchLoop nr (que.queue prio)
    (fibers, que.setQueue prio rest)

/-! ## What a queue holds -/

/-- How often a fiber is queued, at any priority. -/
def count [DecidableEq Fiber] (que : WorkQueue Fiber) (fiber : Fiber) : Nat :=
  que.low.count fiber + que.normal.count fiber + que.emerg.count fiber

def Unlimited (que : WorkQueue Fiber) : Prop :=
  que.limit = noLimit

theorem fetchFiber_eq_none_iff (que : WorkQueue Fiber) :
    que.fetchFiber = none ↔ que.emptyRelax = true := by
  rcases que with ⟨limit, low, normal, emerg⟩
  cases low <;> cases normal <;> cases emerg <;> simp [fetchFiber, emptyRelax]

theorem addFiber_eq {que : WorkQueue Fiber} (unlimited : que.Unlimited) (fiber : Fiber) :
    que.addFiber (some fiber) = ({ que with normal := que.normal ++ [fiber] }, true) := by
  have notLimited : que.limit = noLimit := unlimited
  simp [addFiber, isLimited, notLimited, queue, setQueue]

theorem addLoop_all (fibers : List Fiber) : ∀ (nFiber : Nat) (queue : List Fiber)
    (res : Nat), fibers.length ≤ nFiber →
    (addLoop (fibers.map some) nFiber queue res).1 = queue ++ fibers ∧
      (addLoop (fibers.map some) nFiber queue res).2.1 = res + fibers.length := by
  induction fibers with
  | nil => simp [addLoop]
  | cons fiber fibers induction =>
      intro nFiber queue res enough
      simp only [List.length_cons] at enough
      have predecessor : decrement nFiber = nFiber - 1 := by
        simp only [decrement]
        split <;> omega
      simp only [List.map_cons, addLoop, predecessor]
      split
      · have noneLeft : fibers = [] := List.length_eq_zero_iff.mp (by omega)
        simp [noneLeft]
      · have rest := induction (nFiber - 1) (queue ++ [fiber]) (res + 1) (by omega)
        simp only [List.length_cons]
        exact ⟨by simpa using rest.1, by rw [rest.2]; omega⟩

/-- An unlimited queue takes a whole list of fibers. -/
theorem addFibers_eq {que : WorkQueue Fiber} (unlimited : que.Unlimited)
    (fibers : List Fiber) :
    (que.addFibers (fibers.map some)).1 = { que with normal := que.normal ++ fibers } ∧
      (que.addFibers (fibers.map some)).2.1 = fibers.length := by
  have notLimited : que.limit = noLimit := unlimited
  cases fibers with
  | nil => simp [addFibers]
  | cons fiber fibers =>
      have all := addLoop_all (fiber :: fibers) (fiber :: fibers).length que.normal 0
        (Nat.le_refl _)
      simp only [List.map_cons, List.length_cons] at all
      simp [addFibers, isLimited, notLimited, queue, setQueue, all]

theorem fetchLoop_eq (nr : Nat) (queue : List Fiber) :
    fetchLoop nr queue = (queue.take nr, queue.drop nr) := by
  induction queue generalizing nr with
  | nil => simp [fetchLoop]
  | cons fiber queue induction =>
      cases nr with
      | zero => simp [fetchLoop]
      | succ nr => simp [fetchLoop, induction]

theorem fetchFibers_eq (que : WorkQueue Fiber) (nr : Nat) :
    que.fetchFibers nr =
      (que.normal.take nr, { que with normal := que.normal.drop nr }) := by
  simp [fetchFibers, fetchLoop_eq, queue, setQueue]

section

variable [DecidableEq Fiber]

theorem count_addFiber {que : WorkQueue Fiber} (unlimited : que.Unlimited)
    (fiber other : Fiber) :
    (que.addFiber (some fiber)).1.count other =
      que.count other + if other = fiber then 1 else 0 := by
  simp only [addFiber_eq unlimited, count, List.count_append, List.count_singleton',
    eq_comm (a := fiber)]
  omega

theorem count_fetchFiber {que rest : WorkQueue Fiber} {prio : Priority} {fiber : Fiber}
    (fetched : que.fetchFiber = some (prio, fiber, rest)) (other : Fiber) :
    que.count other = rest.count other + if other = fiber then 1 else 0 := by
  rcases que with ⟨limit, low, normal, emerg⟩
  cases low <;> cases normal <;> cases emerg <;>
    simp only [fetchFiber, Option.some.injEq, Prod.mk.injEq, reduceCtorEq] at fetched <;>
    rcases fetched with ⟨_, rfl, rfl⟩ <;>
    simp only [count, List.count_cons, List.count_nil, beq_iff_eq, eq_comm (a := other)] <;>
    omega

theorem count_fetchFibers (que : WorkQueue Fiber) (nr : Nat) (other : Fiber) :
    que.count other =
      (que.fetchFibers nr).2.count other + (que.fetchFibers nr).1.count other := by
  have split := congrArg (List.count other) (List.take_append_drop nr que.normal)
  simp only [List.count_append] at split
  simp only [fetchFibers_eq, count]
  omega

theorem count_addFibers {que : WorkQueue Fiber} (unlimited : que.Unlimited)
    (fibers : List Fiber) (other : Fiber) :
    (que.addFibers (fibers.map some)).1.count other =
      que.count other + fibers.count other := by
  simp only [(addFibers_eq unlimited fibers).1, count, List.count_append]
  omega

end

theorem unlimited_addFiber {que : WorkQueue Fiber} (unlimited : que.Unlimited)
    (fiber : Fiber) : (que.addFiber (some fiber)).1.Unlimited := by
  rw [addFiber_eq unlimited]
  exact unlimited

theorem unlimited_fetchFiber {que rest : WorkQueue Fiber} {prio : Priority} {fiber : Fiber}
    (unlimited : que.Unlimited) (fetched : que.fetchFiber = some (prio, fiber, rest)) :
    rest.Unlimited := by
  rcases que with ⟨limit, low, normal, emerg⟩
  cases low <;> cases normal <;> cases emerg <;>
    simp only [fetchFiber, Option.some.injEq, Prod.mk.injEq, reduceCtorEq] at fetched <;>
    rcases fetched with ⟨_, _, rfl⟩ <;> exact unlimited

theorem unlimited_fetchFibers {que : WorkQueue Fiber} (unlimited : que.Unlimited)
    (nr : Nat) : (que.fetchFibers nr).2.Unlimited := by
  rw [fetchFibers_eq]
  exact unlimited

theorem unlimited_addFibers {que : WorkQueue Fiber} (unlimited : que.Unlimited)
    (fibers : List Fiber) : (que.addFibers (fibers.map some)).1.Unlimited := by
  rw [(addFibers_eq unlimited fibers).1]
  exact unlimited

end WorkQueue

end FiberNet
