import Mathlib.Data.UInt
import Mathlib.Logic.Function.Basic
import FiberNet.Foundation.OrderedSet

/-! # Timers

`Timer` and `TimerManager`. Timer objects live in a heap indexed by their
addresses, so that the ordered set holds pointers and its comparator reads the
objects behind them. A function
that dereferences an invalid iterator or fails one of its assertions returns
`none`.
-/

namespace FiberNet

inductive TimerType
  | single
  | loop
  deriving DecidableEq, Repr

structure Timer (Fiber : Type) where
  fiber : Option Fiber := none
  started : Bool := false
  cancelled : Bool := false
  type : TimerType := .single
  interval : UInt64 := 0
  nxtExpireTime : UInt64 := 0
  hasManager : Bool := false

namespace Timer

variable {Fiber : Type}

/-- The constructor. `now` is the value of `getCurrentTime()`. -/
def new (sec msec usec nsec now : UInt64) : Timer Fiber :=
  let usec := usec + nsec / 1000
  let msec := msec + usec / 1000
  let interval := msec + sec * 1000
  { interval, nxtExpireTime := interval + now }

def setLoop (timer : Timer Fiber) : Timer Fiber :=
  if timer.started then timer else { timer with type := .loop }

def setManager (timer : Timer Fiber) : Timer Fiber :=
  { timer with hasManager := true }

/-- `task` is the new fiber of the callback, or the calling fiber when there is
no callback. -/
def setTask (timer : Timer Fiber) (task : Fiber) : Option (Timer Fiber) :=
  if timer.cancelled = false ∧ timer.started = false then
    some { timer with fiber := some task }
  else
    none

def start (timer : Timer Fiber) : Option (Timer Fiber) :=
  if timer.started = false ∧ timer.fiber.isSome then
    some { timer with started := true }
  else
    none

/-- `m_fiber = nullptr`, once a SINGLE timer has been delivered. -/
def dropFiber (timer : Timer Fiber) : Timer Fiber :=
  { timer with fiber := none }

/-- `m_cancelled = true`. -/
def markCancelled (timer : Timer Fiber) : Timer Fiber :=
  { timer with cancelled := true }

@[simp] theorem dropFiber_nxtExpireTime (timer : Timer Fiber) :
    timer.dropFiber.nxtExpireTime = timer.nxtExpireTime := rfl

@[simp] theorem dropFiber_type (timer : Timer Fiber) :
    timer.dropFiber.type = timer.type := rfl

@[simp] theorem markCancelled_nxtExpireTime (timer : Timer Fiber) :
    timer.markCancelled.nxtExpireTime = timer.nxtExpireTime := rfl

/-- An object that has been constructed and not yet given to a manager. -/
structure Fresh (timer : Timer Fiber) : Prop where
  fiber : timer.fiber = none
  started : timer.started = false
  cancelled : timer.cancelled = false
  type : timer.type = .single

theorem new_fresh (sec msec usec nsec now : UInt64) :
    (new sec msec usec nsec now : Timer Fiber).Fresh :=
  ⟨rfl, rfl, rfl, rfl⟩

/-- The timer of an expiry check expires at the moment it is built. -/
@[simp] theorem new_now (now : UInt64) :
    (new 0 0 0 0 now : Timer Fiber).nxtExpireTime = now := by
  simp [new]

end Timer

structure TimerManager (Fiber : Type) where
  heap : Nat → Timer Fiber
  timers : List Nat

namespace TimerManager

variable {Fiber : Type}

/-- `Comparator::operator()` on possibly null pointers. -/
def comparator (heap : Nat → Timer Fiber) : Option Nat → Option Nat → Bool
  | none, none => false
  | none, some _ => true
  | some _, none => false
  | some o1, some o2 =>
      if (heap o1).nxtExpireTime < (heap o2).nxtExpireTime then true
      else if (heap o1).nxtExpireTime > (heap o2).nxtExpireTime then false
      else decide (o1 < o2)

/-- The order of `m_timers`, which holds no null pointer. -/
def before (heap : Nat → Timer Fiber) (o1 o2 : Nat) : Bool :=
  comparator heap (some o1) (some o2)

theorem before_iff (heap : Nat → Timer Fiber) (o1 o2 : Nat) :
    before heap o1 o2 = true ↔
      (heap o1).nxtExpireTime < (heap o2).nxtExpireTime ∨
        (heap o1).nxtExpireTime = (heap o2).nxtExpireTime ∧ o1 < o2 := by
  simp only [before, comparator, UInt64.lt_iff_toNat_lt, gt_iff_lt, ← UInt64.toNat_inj]
  split
  · simp [*]
  · split
    · simp only [Bool.false_eq_true, false_iff]
      omega
    · simp only [decide_eq_true_eq]
      omega

instance (heap : Nat → Timer Fiber) :
    IsStrictTotalOrder Nat fun o1 o2 => before heap o1 o2 = true where
  irrefl address equal := by
    rcases (before_iff heap address address).mp equal with later | ⟨_, later⟩
    · simp at later
    · simp at later
  trans first second third firstBefore secondBefore := by
    rw [before_iff] at *
    simp only [UInt64.lt_iff_toNat_lt, ← UInt64.toNat_inj] at *
    omega
  trichotomous first second notBefore notAfter := by
    rw [before_iff] at *
    simp only [UInt64.lt_iff_toNat_lt, ← UInt64.toNat_inj] at *
    omega

/-- The comparator reads nothing but the expiry times. -/
theorem before_congr {left right : Nat → Timer Fiber}
    (same : ∀ address, (left address).nxtExpireTime = (right address).nxtExpireTime) :
    before left = before right := by
  funext o1 o2
  simp [before, comparator, same]

/-- `addTimer`, up to the unlock. The second component is `headTag`: whether the
caller goes on to `notify()`. -/
def addTimer (manager : TimerManager Fiber) (timer : Nat) (task : Fiber)
    (type : TimerType) : Option (TimerManager Fiber × Bool) :=
  let object := manager.heap timer
  let object := if type = .loop then object.setLoop else object
  let object := { object with cancelled := false }.setManager
  (object.setTask task).bind fun object =>
    let heap := Function.update manager.heap timer object
    let timers := OrderedSet.insert (before heap) timer manager.timers
    let headTag := OrderedSet.find (before heap) timer timers == some 0
    object.start.map fun object =>
      ({ heap := Function.update heap timer object, timers }, headTag)

/-- `Timer::cancel`. A null manager, or an `erase` of `end()`, is `none`. -/
def cancel (manager : TimerManager Fiber) (timer : Nat) :
    Option (TimerManager Fiber × Bool) :=
  let object := manager.heap timer
  if object.hasManager = false then none
  else if object.cancelled then some (manager, false)
  else if object.fiber.isSome then
    let heap := Function.update manager.heap timer object.markCancelled
    (OrderedSet.find (before heap) timer manager.timers).map fun position =>
      ({ heap, timers := manager.timers.eraseIdx position }, true)
  else some (manager, false)

/-- Has the timer expired when the clock shows `now`? -/
def expired (manager : TimerManager Fiber) (now : UInt64) (timer : Nat) : Bool :=
  decide ((manager.heap timer).nxtExpireTime ≤
    (Timer.new 0 0 0 0 now : Timer Fiber).nxtExpireTime)

/-- `tms`: the timers up to the first one that has not expired. -/
def expiredTimers (manager : TimerManager Fiber) (now : UInt64) : List Nat :=
  manager.timers.takeWhile (manager.expired now)

/-- One turn of the loop over `tms`. -/
def deliver (state : TimerManager Fiber × List (Option Fiber)) (item : Nat) :
    TimerManager Fiber × List (Option Fiber) :=
  let manager := state.1
  let res := state.2 ++ [(manager.heap item).fiber]
  if (manager.heap item).type = .loop then
    ({ manager with
        timers := OrderedSet.insert (before manager.heap) item manager.timers }, res)
  else
    ({ manager with
        heap := Function.update manager.heap item (manager.heap item).dropFiber }, res)

def getExpiredTasks (manager : TimerManager Fiber) (now : UInt64) :
    TimerManager Fiber × List (Option Fiber) :=
  if manager.timers.isEmpty then (manager, [])
  else
    (manager.expiredTimers now).foldl deliver
      ({ manager with timers := manager.timers.dropWhile (manager.expired now) }, [])

/-- `(uint64_t)-1` stands for "no timer". -/
def getNextExpireTime (manager : TimerManager Fiber) : UInt64 :=
  match manager.timers with
  | [] => -1
  | head :: _ => (manager.heap head).nxtExpireTime

/-- `getNextExpireInterval`, given the clock value `cur` it read first. -/
def getNextExpireInterval (manager : TimerManager Fiber) (cur : UInt64) : UInt64 :=
  let nxt := manager.getNextExpireTime
  if nxt = -1 then -1
  else if nxt ≥ cur then nxt - cur
  else 0

/-! ## What the operations do -/

theorem before_update (heap : Nat → Timer Fiber) (timer : Nat)
    (object : Timer Fiber)
    (same : object.nxtExpireTime = (heap timer).nxtExpireTime) :
    before (Function.update heap timer object) = before heap := by
  apply before_congr
  intro address
  by_cases equal : address = timer
  · subst equal
    simp [same]
  · simp [equal]

@[simp] theorem before_markCancelled (heap : Nat → Timer Fiber) (timer : Nat) :
    before (Function.update heap timer (heap timer).markCancelled) = before heap :=
  before_update heap timer _ rfl

@[simp] theorem before_dropFiber (heap : Nat → Timer Fiber) (timer : Nat) :
    before (Function.update heap timer (heap timer).dropFiber) = before heap :=
  before_update heap timer _ rfl

/-- The object an accepted `addTimer` leaves behind. -/
def armed (object : Timer Fiber) (task : Fiber) (type : TimerType) : Timer Fiber :=
  { object with
    fiber := some task
    started := true
    cancelled := false
    type := if type = .loop then .loop else object.type
    hasManager := true }

/-- No assertion of `addTimer` fails on an object that was not added before. -/
theorem addTimer_eq {manager : TimerManager Fiber} {timer : Nat} (task : Fiber)
    (type : TimerType) (notStarted : (manager.heap timer).started = false) :
    manager.addTimer timer task type =
      some ({ heap := Function.update manager.heap timer
                (armed (manager.heap timer) task type)
              timers := OrderedSet.insert (before manager.heap) timer manager.timers },
        OrderedSet.find (before manager.heap) timer
          (OrderedSet.insert (before manager.heap) timer manager.timers) == some 0) := by
  have sameOrder := before_update manager.heap timer
    { armed (manager.heap timer) task type with started := false } rfl
  cases type <;>
    simp_all [addTimer, Timer.setTask, Timer.start, Timer.setLoop, Timer.setManager,
      armed]

/-- An accepted `addTimer` leaves all expiry times alone and adds one member;
when it does not ask for a wake-up, an older timer expires no later. -/
theorem addTimer_spec {manager next : TimerManager Fiber} {timer : Nat} {task : Fiber}
    {type : TimerType} {headTag : Bool}
    (accepted : manager.addTimer timer task type = some (next, headTag)) :
    before next.heap = before manager.heap ∧
    (∀ other, (next.heap other).nxtExpireTime = (manager.heap other).nxtExpireTime) ∧
    next.timers = OrderedSet.insert (before manager.heap) timer manager.timers ∧
    (headTag = false → ∃ earlier ∈ manager.timers,
      (manager.heap earlier).nxtExpireTime ≤ (manager.heap timer).nxtExpireTime) := by
  cases started : (manager.heap timer).started with
  | true =>
      cases type <;>
        simp [addTimer, Timer.setTask, Timer.setManager, Timer.setLoop, started] at accepted
  | false =>
      rw [addTimer_eq task type started] at accepted
      cases accepted
      refine ⟨before_update _ _ _ rfl, fun other => ?_, rfl, fun notHead => ?_⟩
      · rcases eq_or_ne other timer with equal | different
        · simp [equal, armed]
        · simp [different]
      · rcases OrderedSet.find_insert_or_less (before manager.heap) timer
          manager.timers with isHead | ⟨earlier, member, ordered⟩
        · simp [isHead] at notHead
        · refine ⟨earlier, member, ?_⟩
          rw [before_iff] at ordered
          simp only [UInt64.le_iff_toNat_le, UInt64.lt_iff_toNat_lt,
            ← UInt64.toNat_inj] at *
          omega

/-- A cancel never adds a timer and never moves one. -/
theorem cancel_spec {manager next : TimerManager Fiber} {timer : Nat} {result : Bool}
    (answered : manager.cancel timer = some (next, result)) :
    before next.heap = before manager.heap ∧
    (∀ other, (next.heap other).nxtExpireTime = (manager.heap other).nxtExpireTime) ∧
    next.timers.Sublist manager.timers := by
  simp only [cancel] at answered
  split at answered
  · cases answered
  · split at answered
    · cases answered
      exact ⟨rfl, fun _ => rfl, List.Sublist.refl _⟩
    · split at answered
      · rcases Option.map_eq_some_iff.mp answered with ⟨position, _, isNext⟩
        cases isNext
        refine ⟨before_markCancelled _ _, fun other => ?_, List.eraseIdx_sublist _ _⟩
        rcases eq_or_ne other timer with equal | different
        · simp [equal]
        · simp [different]
      · cases answered
        exact ⟨rfl, fun _ => rfl, List.Sublist.refl _⟩

theorem cancel_refused {manager : TimerManager Fiber} {timer : Nat}
    (hasManager : (manager.heap timer).hasManager = true)
    (spent : (manager.heap timer).cancelled = true ∨ (manager.heap timer).fiber = none) :
    manager.cancel timer = some (manager, false) := by
  rcases spent with cancelled | delivered
  · simp [cancel, hasManager, cancelled]
  · simp [cancel, hasManager, delivered]

/-- A cancel that gets as far as `erase` on a timer of the set succeeds. -/
theorem cancel_of_mem {manager : TimerManager Fiber} {timer : Nat}
    (hasManager : (manager.heap timer).hasManager = true)
    (notCancelled : (manager.heap timer).cancelled = false)
    (hasFiber : (manager.heap timer).fiber.isSome = true)
    (sorted : OrderedSet.Sorted (before manager.heap) manager.timers)
    (member : timer ∈ manager.timers) :
    ∃ next, manager.cancel timer = some (next, true) ∧
      next.heap = Function.update manager.heap timer
        (manager.heap timer).markCancelled ∧
      next.timers.Sublist manager.timers ∧
      ∀ other, other ∈ next.timers ↔ other ∈ manager.timers ∧ other ≠ timer := by
  rcases OrderedSet.find_of_mem sorted member with ⟨position, found, here⟩
  refine ⟨⟨Function.update manager.heap timer (manager.heap timer).markCancelled,
    manager.timers.eraseIdx position⟩, ?_, rfl,
    List.eraseIdx_sublist _ _, OrderedSet.mem_eraseIdx_iff sorted here⟩
  simp [cancel, hasManager, notCancelled, hasFiber, found]

/-- The test of the expiry loop is downward closed in the order of the set. -/
theorem expired_downward (manager : TimerManager Fiber) (now : UInt64)
    (earlier later : Nat) (ordered : before manager.heap earlier later = true)
    (expires : manager.expired now later = true) :
    manager.expired now earlier = true := by
  rw [before_iff] at ordered
  simp only [expired, Timer.new_now, decide_eq_true_eq, UInt64.le_iff_toNat_le,
    UInt64.lt_iff_toNat_lt, ← UInt64.toNat_inj] at *
  omega

theorem mem_expiredTimers {manager : TimerManager Fiber} {now : UInt64}
    (sorted : OrderedSet.Sorted (before manager.heap) manager.timers) (timer : Nat) :
    timer ∈ manager.expiredTimers now ↔
      timer ∈ manager.timers ∧ manager.expired now timer = true :=
  OrderedSet.mem_takeWhile_iff sorted (manager.expired_downward now) timer

/-- The loop over `tms`: the fibers come out in the order of the list, SINGLE
timers lose theirs, LOOP timers go back into the set. -/
theorem foldl_deliver (items : List Nat) : ∀ (manager : TimerManager Fiber)
    (res : List (Option Fiber)), items.Nodup →
    OrderedSet.Sorted (before manager.heap) manager.timers →
    let final := items.foldl deliver (manager, res)
    final.2 = res ++ items.map (fun item => (manager.heap item).fiber) ∧
    (∀ timer, final.1.heap timer =
      if timer ∈ items ∧ (manager.heap timer).type = .single then
        (manager.heap timer).dropFiber
      else manager.heap timer) ∧
    OrderedSet.Sorted (before manager.heap) final.1.timers ∧
    ∀ timer, timer ∈ final.1.timers ↔
      timer ∈ manager.timers ∨ timer ∈ items ∧ (manager.heap timer).type = .loop := by
  induction items with
  | nil =>
      intro manager res _ sorted
      simp [sorted]
  | cons item items induction =>
      intro manager res nodup sorted
      have parts := List.nodup_cons.mp nodup
      cases type : (manager.heap item).type with
      | loop =>
          have rest := induction
            { manager with
              timers := OrderedSet.insert (before manager.heap) item manager.timers }
            (res ++ [(manager.heap item).fiber]) parts.2 (OrderedSet.insert_sorted sorted)
          simp only [List.foldl_cons, deliver, type, if_true]
          refine ⟨by simpa using rest.1, fun timer => ?_, rest.2.2.1, fun timer => ?_⟩
          · rw [rest.2.1 timer]
            by_cases equal : timer = item
            · simp [equal, type]
            · simp [equal]
          · rw [rest.2.2.2 timer, OrderedSet.mem_insert]
            by_cases equal : timer = item
            · simp [equal, type]
            · simp [equal]
      | single =>
          let heap := Function.update manager.heap item (manager.heap item).dropFiber
          have sameOrder : before heap = before manager.heap := by simp [heap]
          have rest := induction { manager with heap }
            (res ++ [(manager.heap item).fiber]) parts.2 (by simpa [sameOrder] using sorted)
          have elsewhere : ∀ timer, timer ∈ items → heap timer = manager.heap timer := by
            intro timer member
            have different : timer ≠ item := fun equal => parts.1 (equal ▸ member)
            simp [heap, different]
          simp only [sameOrder] at rest
          simp only [List.foldl_cons, deliver, type, reduceCtorEq, if_false]
          refine ⟨?_, fun timer => ?_, rest.2.2.1, fun timer => ?_⟩
          · rw [rest.1]
            simp only [List.map_cons, List.append_assoc, List.singleton_append]
            rw [List.map_congr_left fun timer member => by rw [elsewhere timer member]]
          · rw [rest.2.1 timer]
            by_cases equal : timer = item
            · simp [equal, type, parts.1, heap]
            · simp [equal, heap]
          · rw [rest.2.2.2 timer]
            by_cases equal : timer = item
            · simp [equal, type, parts.1]
            · simp [equal, heap]

/-- `getExpiredTasks` in full: what it returns, what becomes of the objects and
of the set. -/
theorem getExpiredTasks_spec (manager : TimerManager Fiber) (now : UInt64)
    (sorted : OrderedSet.Sorted (before manager.heap) manager.timers) :
    let final := manager.getExpiredTasks now
    final.2 = (manager.expiredTimers now).map (fun timer => (manager.heap timer).fiber) ∧
    (∀ timer, final.1.heap timer =
      if timer ∈ manager.expiredTimers now ∧ (manager.heap timer).type = .single then
        (manager.heap timer).dropFiber
      else manager.heap timer) ∧
    final.1.timers = manager.timers.filter fun timer =>
      !(manager.expired now timer && (manager.heap timer).type == .single) := by
  have nodup : manager.timers.Nodup :=
    sorted.imp fun {first second} ordered equal => by
      rw [equal, OrderedSet.less_irrefl (before manager.heap)] at ordered
      cases ordered
  have expiredNodup : (manager.expiredTimers now).Nodup :=
    nodup.sublist (List.takeWhile_sublist _)
  have restSorted : OrderedSet.Sorted (before manager.heap)
      (manager.timers.dropWhile (manager.expired now)) :=
    sorted.sublist (List.dropWhile_sublist _)
  have loop := foldl_deliver (manager.expiredTimers now)
    { manager with timers := manager.timers.dropWhile (manager.expired now) } []
    expiredNodup restSorted
  unfold getExpiredTasks
  split
  · rename_i empty
    have noTimers : manager.timers = [] := List.isEmpty_iff.mp empty
    simp [expiredTimers, noTimers]
  · refine ⟨by simpa using loop.1, loop.2.1, ?_⟩
    apply OrderedSet.eq_of_mem_iff loop.2.2.1 (sorted.sublist List.filter_sublist)
    intro timer
    rw [loop.2.2.2 timer, mem_expiredTimers sorted,
      OrderedSet.mem_dropWhile_iff sorted (manager.expired_downward now)]
    cases type : (manager.heap timer).type <;>
      cases expires : manager.expired now timer <;>
      simp [type, expires]

theorem getExpiredTasks_sorted {manager : TimerManager Fiber} (now : UInt64)
    (sorted : OrderedSet.Sorted (before manager.heap) manager.timers) :
    OrderedSet.Sorted (before (manager.getExpiredTasks now).1.heap)
      (manager.getExpiredTasks now).1.timers := by
  have spec := manager.getExpiredTasks_spec now sorted
  have sameOrder : before (manager.getExpiredTasks now).1.heap = before manager.heap := by
    apply before_congr
    intro timer
    rw [spec.2.1 timer]
    split <;> rfl
  rw [sameOrder, spec.2.2]
  exact sorted.sublist List.filter_sublist

end TimerManager

end FiberNet
