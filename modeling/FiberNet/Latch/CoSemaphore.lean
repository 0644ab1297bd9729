import Mathlib.Logic.Function.Basic
import FiberNet.Foundation.Machine

/-! # The coroutine semaphore

`_value` and `_holdQue` are only touched under `m_mx`; the hold count and the queues of
the scheduler are shared with everybody. A fiber that waits is in `_holdQue` before it
has jumped out, and the one that takes it from there does not look whether it has.
-/

namespace FiberNet

inductive SemaphoreCall
  | tryWait
  | wait
  | notify
  deriving DecidableEq, Repr

/-- Where a fiber is with respect to one semaphore. -/
inductive CoPosition (Fiber : Type)
  | outside
  /-- Waiting for `m_mx`. -/
  | acquire (call : SemaphoreCall)
  | tryTest
  | waitTest
  | addHold
  | notifyTest
  /-- `activateFiber`, before `addNewFiber` and before `delHold`. -/
  | activate (fiber : Fiber)
  | delHold
  /-- At the end of the guard's scope. A `wait` that was not granted goes on to
  `YieldToHold`. -/
  | unlock (call : SemaphoreCall) (granted : Bool)
  /-- On the way to the jump of `YieldToHold`. -/
  | yielding
  | parked
  deriving DecidableEq, Repr

/-- `activated` counts how often a fiber is in the hands of the scheduler to be
resumed, `others` what the rest of the program has added to the hold count. The last
six fields only record the run. -/
structure CoSemaphore (Fiber : Type) where
  mutex : Option Fiber
  holdQue : List Fiber
  value : Int
  position : Fiber → CoPosition Fiber
  activated : Fiber → Nat
  holdCount : Int
  others : Int
  granted : Nat
  tried : Nat
  notified : Nat
  queued : List Fiber
  handed : List Fiber
  locked : Fiber → Bool

inductive CoAction (Fiber : Type)
  | call (fiber : Fiber) (call : SemaphoreCall)
  | run (fiber : Fiber)
  | elsewhere (holds : Int)
  deriving DecidableEq, Repr

namespace CoSemaphore

variable {Fiber : Type}

def new (Fiber : Type) (value : Int) : CoSemaphore Fiber where
  mutex := none
  holdQue := []
  value := value
  position _ := .outside
  activated _ := 0
  holdCount := 0
  others := 0
  granted := 0
  tried := 0
  notified := 0
  queued := []
  handed := []
  locked _ := false

variable [DecidableEq Fiber]

def goTo (semaphore : CoSemaphore Fiber) (fiber : Fiber) (position : CoPosition Fiber) :
    CoSemaphore Fiber :=
  { semaphore with position := Function.update semaphore.position fiber position }

/-- `wait` or `lock` has returned to its caller, or `notify` or `unlock` has had its
effect. -/
def setLocked (semaphore : CoSemaphore Fiber) (fiber : Fiber) (locked : Bool) :
    CoSemaphore Fiber :=
  { semaphore with locked := Function.update semaphore.locked fiber locked }

def setActivated (semaphore : CoSemaphore Fiber) (fiber : Fiber) (activated : Nat) :
    CoSemaphore Fiber :=
  { semaphore with activated := Function.update semaphore.activated fiber activated }

/-- The test of `wait`, with what follows it under the lock up to `addHold`. -/
def wait (semaphore : CoSemaphore Fiber) (fiber : Fiber) : CoSemaphore Fiber :=
  if semaphore.value > 0 then
    { semaphore with
      value := semaphore.value - 1
      granted := semaphore.granted + 1 }.goTo fiber (.unlock .wait true)
  else
    { semaphore with
      holdQue := semaphore.holdQue ++ [fiber]
      queued := semaphore.queued ++ [fiber] }.goTo fiber .addHold

def tryWait (semaphore : CoSemaphore Fiber) (fiber : Fiber) : CoSemaphore Fiber :=
  if semaphore.value > 0 then
    { semaphore with
      value := semaphore.value - 1
      tried := semaphore.tried + 1 }.goTo fiber (.unlock .tryWait true)
  else semaphore.goTo fiber (.unlock .tryWait false)

/-- `notify` up to the call of `activateFiber`. -/
def notify (semaphore : CoSemaphore Fiber) (fiber : Fiber) : CoSemaphore Fiber :=
  match semaphore.holdQue with
  | waiter :: rest =>
      { semaphore with
        holdQue := rest
        granted := semaphore.granted + 1
        notified := semaphore.notified + 1
        handed := semaphore.handed ++ [waiter] }.setLocked fiber false
          |>.goTo fiber (.activate waiter)
  | [] =>
      { semaphore with
        value := semaphore.value + 1
        notified := semaphore.notified + 1 }.setLocked fiber false
          |>.goTo fiber (.unlock .notify true)

/-- The code of a fiber moves. A fiber blocked on `m_mx` or parked may be unable to. -/
def run (semaphore : CoSemaphore Fiber) (fiber : Fiber) : Option (CoSemaphore Fiber) :=
  match semaphore.position fiber with
  | .outside => none
  | .acquire call =>
      if semaphore.mutex = none then
        some ({ semaphore with mutex := some fiber }.goTo fiber
          (match call with
            | .tryWait => .tryTest
            | .wait => .waitTest
            | .notify => .notifyTest))
      else none
  | .tryTest => some (semaphore.tryWait fiber)
  | .waitTest => some (semaphore.wait fiber)
  | .addHold =>
      some ({ semaphore with holdCount := semaphore.holdCount + 1 }.goTo fiber
        (.unlock .wait false))
  | .notifyTest => some (semaphore.notify fiber)
  | .activate waiter =>
      some ((semaphore.setActivated waiter (semaphore.activated waiter + 1)).goTo fiber
        .delHold)
  | .delHold =>
      some ({ semaphore with holdCount := semaphore.holdCount - 1 }.goTo fiber
        (.unlock .notify true))
  | .unlock .wait true =>
      some ({ semaphore with mutex := none }.setLocked fiber true |>.goTo fiber .outside)
  | .unlock .wait false => some ({ semaphore with mutex := none }.goTo fiber .yielding)
  | .unlock _ _ => some ({ semaphore with mutex := none }.goTo fiber .outside)
  | .yielding => some (semaphore.goTo fiber .parked)
  | .parked =>
      if semaphore.activated fiber = 0 then none
      else
        some ((semaphore.setActivated fiber (semaphore.activated fiber - 1)).setLocked fiber
          true |>.goTo fiber .outside)

def step (semaphore : CoSemaphore Fiber) : CoAction Fiber → Option (CoSemaphore Fiber)
  | .call fiber call =>
      if semaphore.position fiber = .outside then some (semaphore.goTo fiber (.acquire call))
      else none
  | .run fiber => semaphore.run fiber
  | .elsewhere holds =>
      some { semaphore with
        holdCount := semaphore.holdCount + holds
        others := semaphore.others + holds }

def machine (Fiber : Type) [DecidableEq Fiber] (value : Int) :
    Machine (CoSemaphore Fiber) (CoAction Fiber) where
  initial semaphore := semaphore = new Fiber value
  step := step

end CoSemaphore

end FiberNet
