import FiberNet.Foundation.Machine
import FiberNet.Scheduler.TimerManager

/-! # The reactor and its timers

The part of `Reactor::run` that decides how long to sleep, against any number
of threads that add and cancel timers. The clock is read before the head of the
timer set, and `addTimer` releases its lock before it writes to the notify pipe.
-/

namespace FiberNet

namespace TimerWakeup

/-- Where the reactor loop stands. -/
inductive LoopPosition
  | top
  /-- In `getNextExpireInterval`, about to read the clock. -/
  | readClock
  /-- In `getNextExpireInterval`, about to call `getNextExpireTime`. -/
  | readHead (cur : UInt64)
  /-- In `epoll_wait`, with the clock value and the timeout it was called with. -/
  | polling (cur timeout : UInt64)
  | expiring
  | dispatching
  | stopped
  deriving DecidableEq

structure State (Fiber Caller : Type) where
  manager : TimerManager Fiber
  clock : UInt64
  /-- Bytes in the notify pipe. -/
  notifyPipe : Nat
  loop : LoopPosition
  /-- The callers between the insertion of `addTimer` and its `notify()`. -/
  notifying : Caller → Bool

inductive Action (Fiber Caller : Type)
  | tick (now : UInt64)
  | addTimer (caller : Caller) (timer : Nat) (task : Fiber) (type : TimerType)
  | notify (caller : Caller) (written : Bool)
  | cancel (timer : Nat)
  /-- `Reactor::stop` writes to the pipe as well. -/
  | stopNotify
  | enterLoop
  | leaveLoop
  | readClock
  | readHead
  | pollReturns
  | getExpiredTasks
  | drain
  | endDispatch

variable {Fiber Caller : Type}

/-- `std::min(getNextExpireInterval(), MaxTimeOut)`, in milliseconds. -/
def nxtTimeOut (manager : TimerManager Fiber) (cur : UInt64) : UInt64 :=
  let interval := manager.getNextExpireInterval cur
  if 1000 < interval then 1000 else interval

def step [DecidableEq Caller] (state : State Fiber Caller) :
    Action Fiber Caller → Option (State Fiber Caller)
  | .tick now =>
      -- milliseconds since boot stay a second away from the end of the range
      if state.clock ≤ now ∧ now.toNat + 1000 < 2 ^ 64 then
        some { state with clock := now }
      else none
  | .addTimer caller timer task type =>
      if state.notifying caller = false then
        (state.manager.addTimer timer task type).map fun (manager, headTag) =>
          { state with
            manager, notifying := Function.update state.notifying caller headTag }
      else none
  | .notify caller written =>
      -- a non-blocking write fails only on a pipe full of undrained bytes
      if state.notifying caller = true ∧ (written = true ∨ 0 < state.notifyPipe) then
        some { state with
          notifyPipe := if written then state.notifyPipe + 1 else state.notifyPipe
          notifying := Function.update state.notifying caller false }
      else none
  | .cancel timer =>
      (state.manager.cancel timer).map fun (manager, _) => { state with manager }
  | .stopNotify => some { state with notifyPipe := state.notifyPipe + 1 }
  | .enterLoop =>
      if state.loop = .top then some { state with loop := .readClock } else none
  | .leaveLoop =>
      if state.loop = .top then some { state with loop := .stopped } else none
  | .readClock =>
      if state.loop = .readClock then some { state with loop := .readHead state.clock }
      else none
  | .readHead =>
      match state.loop with
      | .readHead cur =>
          some { state with loop := .polling cur (nxtTimeOut state.manager cur) }
      | _ => none
  | .pollReturns =>
      match state.loop with
      | .polling _ _ => some { state with loop := .expiring }
      | _ => none
  | .getExpiredTasks =>
      if state.loop = .expiring then
        some { state with
          manager := (state.manager.getExpiredTasks state.clock).1, loop := .dispatching }
      else none
  | .drain =>
      -- one read of at most 1023 bytes
      if state.loop = .dispatching then
        some { state with notifyPipe := state.notifyPipe - 1023 }
      else none
  | .endDispatch =>
      if state.loop = .dispatching then some { state with loop := .top } else none

def initial (state : State Fiber Caller) : Prop :=
  state.manager.timers = [] ∧ state.clock.toNat + 1000 < 2 ^ 64 ∧
    state.loop = .top ∧ ∀ caller, state.notifying caller = false

@[reducible] def machine (Fiber Caller : Type) [DecidableEq Caller] :
    Machine (State Fiber Caller) (Action Fiber Caller) where
  initial := initial
  step := step

/-- `epoll_wait` will return at once: a byte is in the pipe, or its writer is
on the way. -/
def WakeComing (state : State Fiber Caller) : Prop :=
  0 < state.notifyPipe ∨ ∃ caller, state.notifying caller = true

/-- No timer of the set expires before `deadline`. -/
def NoneBefore (manager : TimerManager Fiber) (deadline : Nat) : Prop :=
  ∀ timer ∈ manager.timers, deadline ≤ (manager.heap timer).nxtExpireTime.toNat

structure Inv (state : State Fiber Caller) : Prop where
  sorted : OrderedSet.Sorted (TimerManager.before state.manager.heap) state.manager.timers
  clock : state.clock.toNat + 1000 < 2 ^ 64
  headRead : ∀ cur, state.loop = .readHead cur → cur.toNat + 1000 < 2 ^ 64
  polling : ∀ cur timeout, state.loop = .polling cur timeout → 0 < timeout →
    NoneBefore state.manager (cur.toNat + timeout.toNat) ∨ WakeComing state

theorem Inv.of_initial {state : State Fiber Caller} (starts : initial state) :
    Inv state := by
  rcases starts with ⟨noTimers, clock, loop, _⟩
  exact
    { sorted := by simp [noTimers]
      clock := clock
      headRead := by simp [loop]
      polling := by simp [loop] }

/-! ## The deadline the reactor computes -/

/-- The head of the set expires first. -/
theorem head_first {manager : TimerManager Fiber} {head : Nat} {tail : List Nat}
    (sorted : OrderedSet.Sorted (TimerManager.before manager.heap) manager.timers)
    (timers : manager.timers = head :: tail) (timer : Nat)
    (member : timer ∈ manager.timers) :
    (manager.heap head).nxtExpireTime.toNat ≤ (manager.heap timer).nxtExpireTime.toNat := by
  rw [timers] at sorted member
  rcases List.mem_cons.mp member with equal | inTail
  · rw [equal]
  · have ordered := (List.pairwise_cons.mp sorted).1 timer inTail
    rw [TimerManager.before_iff] at ordered
    simp only [UInt64.lt_iff_toNat_lt, ← UInt64.toNat_inj] at ordered
    omega

/-- A positive timeout ends no later than the head expires. -/
theorem none_before_deadline {manager : TimerManager Fiber} {cur : UInt64}
    (sorted : OrderedSet.Sorted (TimerManager.before manager.heap) manager.timers)
    (clock : cur.toNat + 1000 < 2 ^ 64) (positive : 0 < nxtTimeOut manager cur) :
    NoneBefore manager (cur.toNat + (nxtTimeOut manager cur).toNat) := by
  intro timer member
  cases timers : manager.timers with
  | nil => simp [timers] at member
  | cons head tail =>
      have first := head_first sorted timers timer member
      suffices cur.toNat + (nxtTimeOut manager cur).toNat ≤
          (manager.heap head).nxtExpireTime.toNat by omega
      have capped : (nxtTimeOut manager cur).toNat ≤ 1000 := by
        simp only [nxtTimeOut]
        split
        · simp
        · rename_i small
          simpa [UInt64.lt_iff_toNat_lt] using small
      have interval : nxtTimeOut manager cur ≤ manager.getNextExpireInterval cur := by
        simp only [nxtTimeOut]
        split
        · rename_i large
          exact UInt64.le_of_lt large
        · exact UInt64.le_refl _
      simp only [UInt64.le_iff_toNat_le, UInt64.lt_iff_toNat_lt] at interval positive
      generalize (nxtTimeOut manager cur).toNat = timeout at *
      simp only [TimerManager.getNextExpireInterval, TimerManager.getNextExpireTime,
        timers] at interval
      split at interval
      · -- the head expires at the sentinel value itself
        rename_i sentinel
        rw [sentinel]
        have largest : (-1 : UInt64).toNat = 2 ^ 64 - 1 := rfl
        omega
      · split at interval
        · rename_i notYet
          rw [UInt64.toNat_sub_of_le _ _ notYet] at interval
          have := UInt64.le_iff_toNat_le.mp notYet
          omega
        · simp at interval
          simp [interval] at positive

/-! ## One step -/

/-- A change that keeps the order and the expiry times and adds no timer keeps
every deadline. -/
theorem NoneBefore.mono {manager next : TimerManager Fiber} {deadline : Nat}
    (none : NoneBefore manager deadline)
    (sameTimes : ∀ other,
      (next.heap other).nxtExpireTime = (manager.heap other).nxtExpireTime)
    (fewer : next.timers ⊆ manager.timers) : NoneBefore next deadline := by
  intro timer member
  rw [sameTimes timer]
  exact none timer (fewer member)

theorem Inv.addTimer [DecidableEq Caller] {state : State Fiber Caller} (inv : Inv state)
    {caller : Caller} {timer : Nat} {task : Fiber} {type : TimerType}
    {manager : TimerManager Fiber} {headTag : Bool}
    (idle : state.notifying caller = false)
    (accepted : state.manager.addTimer timer task type = some (manager, headTag)) :
    Inv { state with
      manager, notifying := Function.update state.notifying caller headTag } := by
  rcases TimerManager.addTimer_spec accepted with ⟨sameOrder, sameTimes, timers, notHead⟩
  constructor
  case sorted =>
    simp only [sameOrder, timers]
    exact OrderedSet.insert_sorted inv.sorted
  case clock => exact inv.clock
  case headRead => exact inv.headRead
  case polling =>
    intro cur timeout position positive
    cases headTag with
    | true => exact .inr (.inr ⟨caller, by simp⟩)
    | false =>
        rcases inv.polling cur timeout position positive with noneBefore | wake
        · left
          rcases notHead rfl with ⟨earlier, inSet, noLater⟩
          intro other member
          rw [timers, OrderedSet.mem_insert] at member
          rw [sameTimes other]
          rcases member with equal | member
          · rw [equal]
            exact le_trans (noneBefore earlier inSet) (UInt64.le_iff_toNat_le.mp noLater)
          · exact noneBefore other member
        · right
          rcases wake with byte | ⟨other, notifying⟩
          · exact .inl byte
          · have different : other ≠ caller := by
              intro equal
              simp [equal, idle] at notifying
            exact .inr ⟨other, by simpa [different] using notifying⟩

theorem Inv.cancel {state : State Fiber Caller} (inv : Inv state) {timer : Nat}
    {manager : TimerManager Fiber} {result : Bool}
    (answered : state.manager.cancel timer = some (manager, result)) :
    Inv { state with manager } := by
  rcases TimerManager.cancel_spec answered with ⟨sameOrder, sameTimes, sublist⟩
  exact
    { sorted := by
        simp only [sameOrder]
        exact inv.sorted.sublist sublist
      clock := inv.clock
      headRead := inv.headRead
      polling := fun cur timeout position positive =>
        (inv.polling cur timeout position positive).imp
          (fun none => none.mono sameTimes sublist.subset) id }

theorem Inv.notify [DecidableEq Caller] {state : State Fiber Caller} (inv : Inv state)
    {caller : Caller} {written : Bool} (possible : written = true ∨ 0 < state.notifyPipe) :
    Inv { state with
      notifyPipe := if written then state.notifyPipe + 1 else state.notifyPipe
      notifying := Function.update state.notifying caller false } := by
  have byte : 0 < if written then state.notifyPipe + 1 else state.notifyPipe := by
    rcases possible with isWritten | full
    · simp [isWritten]
    · split <;> omega
  exact
    { sorted := inv.sorted
      clock := inv.clock
      headRead := inv.headRead
      polling := fun _ _ _ _ => .inr (.inl byte) }

/-- A step of the loop that leaves the reactor outside `epoll_wait`. -/
theorem Inv.leave {state : State Fiber Caller} (inv : Inv state)
    (manager : TimerManager Fiber) (notifyPipe : Nat) (loop : LoopPosition)
    (sorted : OrderedSet.Sorted (TimerManager.before manager.heap) manager.timers)
    (headRead : ∀ cur, loop = .readHead cur → cur = state.clock)
    (notPolling : ∀ cur timeout, loop ≠ .polling cur timeout) :
    Inv { state with manager, notifyPipe, loop } :=
  { sorted
    clock := inv.clock
    headRead := fun cur position => headRead cur position ▸ inv.clock
    polling := fun cur timeout position => absurd position (notPolling cur timeout) }

theorem Inv.step [DecidableEq Caller] {state next : State Fiber Caller}
    {action : Action Fiber Caller} (inv : Inv state)
    (taken : TimerWakeup.step state action = some next) : Inv next := by
  cases action with
  | tick now =>
      simp only [TimerWakeup.step, Option.ite_none_right_eq_some, Option.some.injEq] at taken
      rcases taken with ⟨⟨_, bound⟩, rfl⟩
      exact { inv with clock := bound }
  | addTimer caller timer task type =>
      simp only [TimerWakeup.step, Option.ite_none_right_eq_some] at taken
      rcases taken with ⟨idle, answered⟩
      rcases Option.map_eq_some_iff.mp answered with ⟨⟨manager, headTag⟩, accepted, rfl⟩
      exact inv.addTimer idle accepted
  | notify caller written =>
      simp only [TimerWakeup.step, Option.ite_none_right_eq_some, Option.some.injEq] at taken
      rcases taken with ⟨⟨_, possible⟩, rfl⟩
      exact inv.notify possible
  | cancel timer =>
      simp only [TimerWakeup.step] at taken
      rcases Option.map_eq_some_iff.mp taken with ⟨⟨manager, result⟩, answered, rfl⟩
      exact inv.cancel answered
  | stopNotify =>
      cases taken
      exact
        { inv with
          polling := fun _ _ _ _ => .inr (.inl (Nat.succ_pos _)) }
  | enterLoop =>
      simp only [TimerWakeup.step, Option.ite_none_right_eq_some, Option.some.injEq] at taken
      rcases taken with ⟨_, rfl⟩
      exact inv.leave _ _ .readClock inv.sorted (by simp) (by simp)
  | leaveLoop =>
      simp only [TimerWakeup.step, Option.ite_none_right_eq_some, Option.some.injEq] at taken
      rcases taken with ⟨_, rfl⟩
      exact inv.leave _ _ .stopped inv.sorted (by simp) (by simp)
  | readClock =>
      simp only [TimerWakeup.step, Option.ite_none_right_eq_some, Option.some.injEq] at taken
      rcases taken with ⟨_, rfl⟩
      exact inv.leave _ _ (.readHead state.clock) inv.sorted (by simp) (by simp)
  | readHead =>
      simp only [TimerWakeup.step] at taken
      split at taken
      · rename_i cur position
        cases taken
        exact
          { inv with
            headRead := by simp
            polling := fun _ _ polls positive => by
              cases polls
              exact .inl
                (none_before_deadline inv.sorted (inv.headRead cur position) positive) }
      · cases taken
  | pollReturns =>
      simp only [TimerWakeup.step] at taken
      split at taken
      · cases taken
        exact inv.leave _ _ .expiring inv.sorted (by simp) (by simp)
      · cases taken
  | getExpiredTasks =>
      simp only [TimerWakeup.step, Option.ite_none_right_eq_some, Option.some.injEq] at taken
      rcases taken with ⟨_, rfl⟩
      exact inv.leave _ _ .dispatching (TimerManager.getExpiredTasks_sorted state.clock inv.sorted)
        (by simp) (by simp)
  | drain =>
      simp only [TimerWakeup.step, Option.ite_none_right_eq_some, Option.some.injEq] at taken
      rcases taken with ⟨position, rfl⟩
      exact inv.leave _ _ state.loop inv.sorted (by simp [position]) (by simp [position])
  | endDispatch =>
      simp only [TimerWakeup.step, Option.ite_none_right_eq_some, Option.some.injEq] at taken
      rcases taken with ⟨_, rfl⟩
      exact inv.leave _ _ .top inv.sorted (by simp) (by simp)

/-- While the reactor sleeps with a positive timeout, no timer expires before
its deadline unless a wake-up is already on the way. -/
theorem never_sleeps_past_timer [DecidableEq Caller] {state : State Fiber Caller}
    (reachable : (machine Fiber Caller).Reachable state) {cur timeout : UInt64}
    (asleep : state.loop = .polling cur timeout) (positive : 0 < timeout) :
    (∀ timer ∈ state.manager.timers,
      cur.toNat + timeout.toNat ≤ (state.manager.heap timer).nxtExpireTime.toNat) ∨
    0 < state.notifyPipe ∨ ∃ caller, state.notifying caller = true := by
  have inv : Inv state := reachable.invariant (fun _ => Inv.of_initial)
    fun _ _ _ _ inv _ taken => inv.step taken
  exact inv.polling cur timeout asleep positive

/-- One timer due at 500, its wake-up byte drained: the reactor goes to sleep
until exactly 500. -/
theorem never_sleeps_past_timer_at_500 :
    ∃ state : State Nat Nat, (machine Nat Nat).Reachable state ∧
      state.loop = .polling 0 500 ∧ state.notifyPipe = 0 ∧ state.manager.timers = [0] ∧
      ((∀ timer ∈ state.manager.timers,
        500 ≤ (state.manager.heap timer).nxtExpireTime.toNat) ∨
      0 < state.notifyPipe ∨ ∃ caller, state.notifying caller = true) := by
  have starts : initial
      ({ manager := { heap := fun _ => Timer.new 0 500 0 0 0, timers := [] }
         clock := 0, notifyPipe := 0, loop := .top
         notifying := fun _ => false } : State Nat Nat) :=
    ⟨rfl, by decide, rfl, fun _ => rfl⟩
  rcases Machine.exists_reachable_of_run (machine Nat Nat) starts
    [.addTimer 7 0 70 .single, .notify 7 true,
      .enterLoop, .readClock, .readHead, .pollReturns, .getExpiredTasks, .drain, .endDispatch,
      .enterLoop, .readClock, .readHead]
    (fun state => decide (state.loop = .polling 0 500) && decide (state.notifyPipe = 0) &&
      decide (state.manager.timers = [0])) (by decide)
    with ⟨state, reachable, passes⟩
  simp only [Bool.and_eq_true, decide_eq_true_eq] at passes
  exact ⟨state, reachable, passes.1.1, passes.1.2, passes.2,
    never_sleeps_past_timer reachable passes.1.1 (by decide)⟩

end TimerWakeup

end FiberNet
