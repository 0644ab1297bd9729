import FiberNet.Foundation.Machine
import FiberNet.Scheduler.WorkQueue

/-! # The scheduler: Processers, producers, dispatcher and shutdown

One step of this machine is one access to something two threads share: a fiber's
`_state`, a work queue under its lock, an atomic counter, a semaphore. Everything
between two such accesses is local to its thread and belongs to one of the steps
next to it.
-/

namespace FiberNet

/-- `Fiber::State`. -/
inductive FiberState
  | init
  | ready
  | hold
  | exec
  | term
  | except
  deriving DecidableEq, Repr

/-- What can resume a parked fiber: `CoSemaphore::notify`, the Reactor's
`triggerEvent`, the expiry of a timer. -/
inductive Source
  | semaphore
  | event
  | timer
  deriving DecidableEq, Repr

namespace Source

/-- A fiber in a semaphore's queue or in an event slot holds the scheduler. A
timer does not. -/
def holds : Source → Int
  | .semaphore => 1
  | .event => 1
  | .timer => 0

end Source

/-- How far a fiber is between the jump of `swapIn` and the jump back. -/
inductive Activity
  /-- In its callback. -/
  | running
  /-- Registered with a source, on its way to the jump of `YieldToHold`. -/
  | published
  /-- `YieldToReady` has stored `READY`. -/
  | yielding
  /-- `Fiber::run` has stored `TERM` or `EXCEPT`. -/
  | ended
  deriving DecidableEq, Repr

/-- Where a Processer is in `Processer::run`, named by the next shared access.
`waited` tells the second exit test from the first, `ended` is the fiber that is
`TERM` or `EXCEPT`. -/
inductive Position (Fiber : Type)
  | fetch
  | checkHold (fiber : Fiber)
  | checkReady (fiber : Fiber)
  | checkExec (fiber : Fiber)
  | requeue (fiber : Fiber)
  | setReady (fiber : Fiber)
  | swapIn (fiber : Fiber)
  | inside (fiber : Fiber) (activity : Activity)
  | testReady (fiber : Fiber)
  | addReady (fiber : Fiber)
  | testExec (fiber : Fiber)
  | setHold (fiber : Fiber)
  | testHold (fiber : Fiber)
  | testTerm (fiber : Fiber)
  | testExcept (fiber : Fiber)
  | subtract (ended : Option Fiber)
  | retire (fiber : Fiber)
  | balance
  | steal (nr : Nat)
  | subtractStolen (fibers : List Fiber)
  | store (fibers : List Fiber)
  | addStored (nr sz : Nat)
  | testStopping (waited : Bool)
  | testTotal (waited : Bool)
  | testQueue (waited : Bool)
  | testHolds (waited : Bool)
  | leave (waited : Bool)
  | wait
  | returned
  deriving DecidableEq, Repr

/-- Where a thread is in `Processer::addFiber`. `holds` is what the caller takes
off the hold count afterwards. -/
inductive Submission (n : Nat) (Fiber : Type)
  | idle
  | push (fiber : Fiber) (processer : Fin n) (holds : Int)
  | count (processer : Fin n) (holds : Int)
  | post (processer : Fin n) (holds : Int)
  | release (holds : Int)
  deriving DecidableEq, Repr

/-- `Scheduler::dispatcher`. -/
inductive Dispatcher
  | check
  | notify (index : Nat)
  | sleep
  | ended
  deriving DecidableEq, Repr

/-- `Scheduler::stop`. -/
inductive Stopper
  | idle
  | stopReactor
  | stop (index : Nat)
  | notify (index : Nat)
  | join (index : Nat)
  | joinReactor
  | joinDispatcher
  | stopped
  deriving DecidableEq, Repr

/-- `Reactor::run` as `stop` sees it. -/
inductive ReactorThread
  | running
  | stopping
  | ended
  deriving DecidableEq, Repr

/-- `published` is the one source that may still pass a fiber to `addFiber`. -/
structure Scheduler (n : Nat) (Fiber Producer : Type) where
  state : Fiber → FiberState
  created : Fiber → Bool
  published : Fiber → Option Source
  que : Fin n → WorkQueue Fiber
  payLoad : Fin n → Int
  sem : Fin n → Nat
  stopping : Fin n → Bool
  position : Fin n → Position Fiber
  submission : Producer → Submission n Fiber
  totalFibers : Int
  currentThread : Int
  holdCount : Int
  dispatcher : Dispatcher
  stopper : Stopper
  reactor : ReactorThread

/-- Which thread moves, with the choices that are not its own: the scheduler's
pick among the Processers (it reads their loads one by one, so any pick is
possible), what a fiber does, what a source does. -/
inductive SchedulerAction (n : Nat) (Fiber Producer : Type)
  | run (processer : Fin n)
  | balance (processer maxPrc : Fin n)
  | interrupt (processer : Fin n)
  | publish (processer : Fin n) (source : Source)
  | yieldToReady (processer : Fin n)
  | finish (processer : Fin n) (thrown : Bool)
  | addCallback (producer : Producer) (fiber : Fiber) (processer : Fin n)
  | addNew (producer : Producer) (fiber : Fiber) (processer : Fin n)
  | register (fiber : Fiber) (source : Source)
  | withdraw (fiber : Fiber)
  | wake (producer : Producer) (fiber : Fiber) (processer : Fin n)
  | proceed (producer : Producer)
  | dispatch
  | stop
  | endReactor
  deriving DecidableEq, Repr

namespace Scheduler

variable {n : Nat} {Fiber Producer : Type}

/-- After `Scheduler::start`. -/
def start (n : Nat) (Fiber Producer : Type) : Scheduler n Fiber Producer where
  state _ := .init
  created _ := false
  published _ := none
  que _ := {}
  payLoad _ := 0
  sem _ := 0
  stopping _ := false
  position _ := .fetch
  submission _ := .idle
  totalFibers := 0
  currentThread := n
  holdCount := 0
  dispatcher := .check
  stopper := .idle
  reactor := .running

/-- `sem_post`, which fails at `SEM_VALUE_MAX` and then leaves the count. -/
def semPost (count : Nat) : Nat :=
  if count < 2 ^ 31 - 1 then count + 1 else count

/-- `Processer::notify`. -/
def notify (scheduler : Scheduler n Fiber Producer) (processer : Fin n) :
    Scheduler n Fiber Producer :=
  { scheduler with
    sem := Function.update scheduler.sem processer (semPost (scheduler.sem processer)) }

def goTo (scheduler : Scheduler n Fiber Producer) (processer : Fin n)
    (position : Position Fiber) : Scheduler n Fiber Producer :=
  { scheduler with position := Function.update scheduler.position processer position }

def setQue (scheduler : Scheduler n Fiber Producer) (processer : Fin n)
    (que : WorkQueue Fiber) : Scheduler n Fiber Producer :=
  { scheduler with que := Function.update scheduler.que processer que }

def addPayLoad (scheduler : Scheduler n Fiber Producer) (processer : Fin n)
    (load : Int) : Scheduler n Fiber Producer :=
  { scheduler with
    payLoad := Function.update scheduler.payLoad processer
      (scheduler.payLoad processer + load) }

/-- `maxPrc->m_payLoad / 2` as `steal`'s `int`, passed on as a `size_t`. -/
def stealSize (payLoad : Int) : Nat :=
  (payLoad.tdiv 2 % 2 ^ 64).toNat

section

variable [DecidableEq Fiber]

def setState (scheduler : Scheduler n Fiber Producer) (fiber : Fiber)
    (state : FiberState) : Scheduler n Fiber Producer :=
  { scheduler with state := Function.update scheduler.state fiber state }

def setPublished (scheduler : Scheduler n Fiber Producer) (fiber : Fiber)
    (source : Option Source) : Scheduler n Fiber Producer :=
  { scheduler with published := Function.update scheduler.published fiber source }

/-- The steps of `Processer::run` that leave nothing to choose. Inside a fiber
this is the jump that returns from `swapIn`. -/
def run (scheduler : Scheduler n Fiber Producer) (p : Fin n) :
    Option (Scheduler n Fiber Producer) :=
  match scheduler.position p with
  | .fetch =>
      match (scheduler.que p).fetchFiber with
      | some (_, fiber, que) => some ((scheduler.setQue p que).goTo p (.checkHold fiber))
      | none => some (scheduler.goTo p .balance)
  | .checkHold fiber =>
      some (scheduler.goTo p
        (if scheduler.state fiber = .hold then .setReady fiber else .checkReady fiber))
  | .checkReady fiber =>
      some (scheduler.goTo p
        (if scheduler.state fiber = .ready then .setReady fiber else .checkExec fiber))
  | .checkExec fiber =>
      some (scheduler.goTo p
        (if scheduler.state fiber = .exec then .requeue fiber else .setReady fiber))
  | .requeue fiber =>
      some ((scheduler.setQue p ((scheduler.que p).addFiber (some fiber)).1).goTo p .fetch)
  | .setReady fiber =>
      some ((scheduler.setState fiber .ready).goTo p (.swapIn fiber))
  | .swapIn fiber =>
      some ((scheduler.setState fiber .exec).goTo p (.inside fiber .running))
  | .inside _ .running => none
  | .inside fiber _ => some (scheduler.goTo p (.testReady fiber))
  | .testReady fiber =>
      some (scheduler.goTo p
        (if scheduler.state fiber = .ready then .addReady fiber else .testExec fiber))
  | .addReady fiber =>
      some ((scheduler.setQue p ((scheduler.que p).addFiber (some fiber)).1).goTo p .fetch)
  | .testExec fiber =>
      some (scheduler.goTo p
        (if scheduler.state fiber = .exec then .setHold fiber else .testHold fiber))
  | .setHold fiber =>
      some ((scheduler.setState fiber .hold).goTo p (.subtract none))
  | .testHold fiber =>
      some (scheduler.goTo p
        (if scheduler.state fiber = .hold then .subtract none else .testTerm fiber))
  | .testTerm fiber =>
      some (scheduler.goTo p
        (if scheduler.state fiber = .term then .subtract (some fiber) else .testExcept fiber))
  | .testExcept fiber =>
      -- otherwise `ASSERT2(false, ..)`, which only logs
      some (scheduler.goTo p
        (if scheduler.state fiber = .except then .subtract (some fiber) else .fetch))
  | .subtract ended =>
      some ((scheduler.addPayLoad p (-1)).goTo p (ended.elim .fetch .retire))
  | .retire _ =>
      some ({ scheduler with totalFibers := scheduler.totalFibers - 1 }.goTo p .fetch)
  | .balance => none
  | .steal nr =>
      let (fibers, que) := (scheduler.que p).fetchFibers nr
      some ((scheduler.setQue p que).goTo p
        (if fibers = [] then .store [] else .subtractStolen fibers))
  | .subtractStolen fibers =>
      some ((scheduler.addPayLoad p (-fibers.length)).goTo p (.store fibers))
  | .store fibers =>
      let (que, nr, _) := (scheduler.que p).addFibers (fibers.map some)
      some ((scheduler.setQue p que).goTo p (.addStored nr fibers.length))
  | .addStored nr sz =>
      some ((scheduler.addPayLoad p nr).goTo p
        (if sz > 0 then .fetch else .testStopping false))
  | .testStopping waited =>
      some (scheduler.goTo p
        (if scheduler.stopping p then .testTotal waited
          else if waited then .fetch else .wait))
  | .testTotal waited =>
      some (scheduler.goTo p
        (if scheduler.totalFibers ≤ 0 then .testQueue waited
          else if waited then .fetch else .wait))
  | .testQueue waited =>
      some (scheduler.goTo p
        (if (scheduler.que p).emptyRelax then .testHolds waited
          else if waited then .fetch else .wait))
  | .testHolds waited =>
      some (scheduler.goTo p
        (if scheduler.holdCount ≤ 0 then .leave waited
          else if waited then .fetch else .wait))
  | .leave waited =>
      if waited then
        some ({ scheduler with currentThread := scheduler.currentThread - 1 }.goTo p
          .returned)
      else some (scheduler.goTo p .returned)
  | .wait =>
      if scheduler.sem p = 0 then none
      else
        some ({ scheduler with
          sem := Function.update scheduler.sem p (scheduler.sem p - 1) }.goTo p
            (.testStopping true))
  | .returned => none

/-- `Scheduler::balance` up to the call of `steal`. `maxPrc` is the answer of
`getMaxPayLoad`; the fibers are then taken from the caller's own queue. -/
def balance (scheduler : Scheduler n Fiber Producer) (p maxPrc : Fin n) :
    Option (Scheduler n Fiber Producer) :=
  match scheduler.position p with
  | .balance =>
      if n = 1 ∨ maxPrc = p then some (scheduler.goTo p (.testStopping false))
      else some (scheduler.goTo p (.steal (stealSize (scheduler.payLoad maxPrc))))
  | _ => none

/-- `sem_wait` fails and `waitForNotify` answers -1. -/
def interrupt (scheduler : Scheduler n Fiber Producer) (p : Fin n) :
    Option (Scheduler n Fiber Producer) :=
  match scheduler.position p with
  | .wait => some (scheduler.goTo p (.testStopping true))
  | _ => none

/-- The running fiber registers itself with a source. -/
def publish (scheduler : Scheduler n Fiber Producer) (p : Fin n) (source : Source) :
    Option (Scheduler n Fiber Producer) :=
  match scheduler.position p with
  | .inside fiber .running =>
      some ({ scheduler with holdCount := scheduler.holdCount + source.holds }
        |>.setPublished fiber (some source)
        |>.goTo p (.inside fiber .published))
  | _ => none

def yieldToReady (scheduler : Scheduler n Fiber Producer) (p : Fin n) :
    Option (Scheduler n Fiber Producer) :=
  match scheduler.position p with
  | .inside fiber .running =>
      some ((scheduler.setState fiber .ready).goTo p (.inside fiber .yielding))
  | _ => none

/-- The end of `Fiber::run`. -/
def finish (scheduler : Scheduler n Fiber Producer) (p : Fin n) (thrown : Bool) :
    Option (Scheduler n Fiber Producer) :=
  match scheduler.position p with
  | .inside fiber .running =>
      some ((scheduler.setState fiber (if thrown then .except else .term)).goTo p
        (.inside fiber .ended))
  | _ => none

/-- A callback becomes a new fiber that a source will start: `addReadEvent`,
`addWriteEvent` and `addTimer` with a callback. -/
def register (scheduler : Scheduler n Fiber Producer) (fiber : Fiber) (source : Source) :
    Option (Scheduler n Fiber Producer) :=
  if scheduler.created fiber = false ∧ source ≠ .semaphore then
    some ({ scheduler with
      created := Function.update scheduler.created fiber true
      holdCount := scheduler.holdCount + source.holds }.setPublished fiber (some source))
  else none

/-- `delEvent` or `Timer::cancel`: the source drops its fiber. -/
def withdraw (scheduler : Scheduler n Fiber Producer) (fiber : Fiber) :
    Option (Scheduler n Fiber Producer) :=
  match scheduler.published fiber with
  | some source =>
      some ({ scheduler with holdCount := scheduler.holdCount - source.holds }.setPublished
        fiber none)
  | none => none

section

variable [DecidableEq Producer]

def setSubmission (scheduler : Scheduler n Fiber Producer) (producer : Producer)
    (submission : Submission n Fiber) : Scheduler n Fiber Producer :=
  { scheduler with
    submission := Function.update scheduler.submission producer submission }

/-- The start of `Processer::addFiber(CbType)`. -/
def addCallback (scheduler : Scheduler n Fiber Producer) (producer : Producer)
    (fiber : Fiber) (p : Fin n) : Option (Scheduler n Fiber Producer) :=
  if scheduler.submission producer = .idle ∧ scheduler.created fiber = false then
    some ({ scheduler with
      created := Function.update scheduler.created fiber true
      totalFibers := scheduler.totalFibers + 1 }.setSubmission producer (.push fiber p 0))
  else none

/-- `Processer::addFiber(Fiber::ptr)` on a fiber that never ran. -/
def addNew (scheduler : Scheduler n Fiber Producer) (producer : Producer)
    (fiber : Fiber) (p : Fin n) : Option (Scheduler n Fiber Producer) :=
  if scheduler.submission producer = .idle ∧ scheduler.created fiber = false then
    some ({ scheduler with
      created := Function.update scheduler.created fiber true }.setSubmission producer
        (.push fiber p 0))
  else none

/-- A source gives up its fiber to `Processer::addFiber(Fiber::ptr)`. -/
def wake (scheduler : Scheduler n Fiber Producer) (producer : Producer)
    (fiber : Fiber) (p : Fin n) : Option (Scheduler n Fiber Producer) :=
  match scheduler.submission producer, scheduler.published fiber with
  | .idle, some source =>
      some ((scheduler.setPublished fiber none).setSubmission producer
        (.push fiber p source.holds))
  | _, _ => none

/-- The rest of `Processer::addFiber`, then the caller's `--m_holdCount`. -/
def proceed (scheduler : Scheduler n Fiber Producer) (producer : Producer) :
    Option (Scheduler n Fiber Producer) :=
  match scheduler.submission producer with
  | .idle => none
  | .push fiber p holds =>
      some ((scheduler.setQue p ((scheduler.que p).addFiber (some fiber)).1).setSubmission
        producer (.count p holds))
  | .count p holds =>
      some ((scheduler.addPayLoad p 1).setSubmission producer (.post p holds))
  | .post p holds =>
      some ((scheduler.notify p).setSubmission producer (.release holds))
  | .release holds =>
      some ({ scheduler with holdCount := scheduler.holdCount - holds }.setSubmission
        producer .idle)

end

end

def dispatch (scheduler : Scheduler n Fiber Producer) :
    Option (Scheduler n Fiber Producer) :=
  match scheduler.dispatcher with
  | .check =>
      some { scheduler with
        dispatcher := if scheduler.currentThread > 0 then .notify 0 else .ended }
  | .notify index =>
      if inside : index < n then
        some { scheduler.notify ⟨index, inside⟩ with dispatcher := .notify (index + 1) }
      else some { scheduler with dispatcher := .sleep }
  | .sleep => some { scheduler with dispatcher := .check }
  | .ended => none

/-- `Scheduler::stop`. -/
def stop (scheduler : Scheduler n Fiber Producer) :
    Option (Scheduler n Fiber Producer) :=
  match scheduler.stopper with
  | .idle => some { scheduler with stopper := .stopReactor }
  | .stopReactor =>
      some { scheduler with
        stopper := .stop 0
        reactor := if scheduler.reactor = .running then .stopping else scheduler.reactor }
  | .stop index =>
      if inside : index < n then
        some { scheduler with
          stopping := Function.update scheduler.stopping ⟨index, inside⟩ true
          stopper := .notify index }
      else some { scheduler with stopper := .joinReactor }
  | .notify index =>
      if inside : index < n then
        some { scheduler.notify ⟨index, inside⟩ with stopper := .join index }
      else none
  | .join index =>
      if inside : index < n then
        match scheduler.position ⟨index, inside⟩ with
        | .returned => some { scheduler with stopper := .stop (index + 1) }
        | _ => none
      else none
  | .joinReactor =>
      if scheduler.reactor = .ended then some { scheduler with stopper := .joinDispatcher }
      else none
  | .joinDispatcher =>
      if scheduler.dispatcher = .ended then some { scheduler with stopper := .stopped }
      else none
  | .stopped => none

/-- `Reactor::isStopping`. -/
def isStopping (scheduler : Scheduler n Fiber Producer) : Bool :=
  scheduler.holdCount = 0 && scheduler.reactor ≠ .running && scheduler.totalFibers = 0

/-- `Reactor::run` tests `isStopping` and ends. -/
def endReactor (scheduler : Scheduler n Fiber Producer) :
    Option (Scheduler n Fiber Producer) :=
  if scheduler.reactor = .stopping ∧ scheduler.isStopping then
    some { scheduler with reactor := .ended }
  else none

/-- `Processer::run` touches no other Processer and no producer. -/
theorem run_frame [DecidableEq Fiber] {scheduler next : Scheduler n Fiber Producer}
    {p : Fin n} (taken : scheduler.run p = some next) :
    next.submission = scheduler.submission ∧ ∀ q, q ≠ p →
      next.position q = scheduler.position q ∧ next.que q = scheduler.que q ∧
        next.sem q = scheduler.sem q := by
  unfold run at taken
  repeat' split at taken
  all_goals
    first
    | cases taken
      simp +contextual [goTo, setQue, setState, addPayLoad]
    | cases taken

theorem run_sources [DecidableEq Fiber] {scheduler next : Scheduler n Fiber Producer}
    {p : Fin n} (taken : scheduler.run p = some next) :
    next.created = scheduler.created ∧ next.published = scheduler.published := by
  unfold run at taken
  repeat' split at taken
  all_goals
    first
    | cases taken
      exact ⟨rfl, rfl⟩
    | cases taken

/-- What two states have in common when only counters, semaphores, stop flags and the
threads besides Processers and producers differ. -/
structure SameFibers (scheduler next : Scheduler n Fiber Producer) : Prop where
  state : next.state = scheduler.state
  created : next.created = scheduler.created
  published : next.published = scheduler.published
  que : next.que = scheduler.que
  position : next.position = scheduler.position
  submission : next.submission = scheduler.submission

theorem sameFibers_dispatch {scheduler next : Scheduler n Fiber Producer}
    (taken : scheduler.dispatch = some next) : SameFibers scheduler next := by
  unfold dispatch at taken
  split at taken
  · cases taken
    exact ⟨rfl, rfl, rfl, rfl, rfl, rfl⟩
  · split at taken <;> cases taken <;> exact ⟨rfl, rfl, rfl, rfl, rfl, rfl⟩
  · cases taken
    exact ⟨rfl, rfl, rfl, rfl, rfl, rfl⟩
  · cases taken

theorem sameFibers_stop {scheduler next : Scheduler n Fiber Producer}
    (taken : scheduler.stop = some next) : SameFibers scheduler next := by
  unfold stop at taken
  split at taken
  · cases taken
    exact ⟨rfl, rfl, rfl, rfl, rfl, rfl⟩
  · cases taken
    exact ⟨rfl, rfl, rfl, rfl, rfl, rfl⟩
  · split at taken <;> cases taken <;> exact ⟨rfl, rfl, rfl, rfl, rfl, rfl⟩
  · split at taken <;> cases taken
    exact ⟨rfl, rfl, rfl, rfl, rfl, rfl⟩
  · split at taken
    · split at taken <;> cases taken
      exact ⟨rfl, rfl, rfl, rfl, rfl, rfl⟩
    · cases taken
  · split at taken <;> cases taken
    exact ⟨rfl, rfl, rfl, rfl, rfl, rfl⟩
  · split at taken <;> cases taken
    exact ⟨rfl, rfl, rfl, rfl, rfl, rfl⟩
  · cases taken

variable [DecidableEq Fiber] [DecidableEq Producer]

def step (scheduler : Scheduler n Fiber Producer) :
    SchedulerAction n Fiber Producer → Option (Scheduler n Fiber Producer)
  | .run p => scheduler.run p
  | .balance p maxPrc => scheduler.balance p maxPrc
  | .interrupt p => scheduler.interrupt p
  | .publish p source => scheduler.publish p source
  | .yieldToReady p => scheduler.yieldToReady p
  | .finish p thrown => scheduler.finish p thrown
  | .addCallback producer fiber p => scheduler.addCallback producer fiber p
  | .addNew producer fiber p => scheduler.addNew producer fiber p
  | .register fiber source => scheduler.register fiber source
  | .withdraw fiber => scheduler.withdraw fiber
  | .wake producer fiber p => scheduler.wake producer fiber p
  | .proceed producer => scheduler.proceed producer
  | .dispatch => scheduler.dispatch
  | .stop => scheduler.stop
  | .endReactor => scheduler.endReactor

def machine (n : Nat) (Fiber Producer : Type) [DecidableEq Fiber] [DecidableEq Producer] :
    Machine (Scheduler n Fiber Producer) (SchedulerAction n Fiber Producer) where
  initial scheduler := scheduler = start n Fiber Producer
  step := step

end Scheduler

end FiberNet
