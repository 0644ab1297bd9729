import Mathlib.Logic.Function.Basic
import FiberNet.Foundation.Machine

/-! # The Reactor's table of registered events

Each operation works under the lock of its descriptor, so it is one step. What the loop
handles was collected by `epoll_wait` before the locks were taken. Every `epoll_ctl` may
fail, and the outcome is part of the action.
-/

namespace FiberNet

inductive EventType
  | read
  | write
  deriving DecidableEq, Repr

/-- A set of the bits `READ` and `WRITE`. -/
structure Events where
  read : Bool
  write : Bool
  deriving DecidableEq, Repr

namespace Events

def none : Events := ⟨false, false⟩

def has (events : Events) : EventType → Bool
  | .read => events.read
  | .write => events.write

/-- `events | type`. -/
def add (events : Events) : EventType → Events
  | .read => { events with read := true }
  | .write => { events with write := true }

/-- `events & ~type`. -/
def remove (events : Events) : EventType → Events
  | .read => { events with read := false }
  | .write => { events with write := false }

def inter (left right : Events) : Events :=
  ⟨left.read && right.read, left.write && right.write⟩

def union (left right : Events) : Events :=
  ⟨left.read || right.read, left.write || right.write⟩

/-- `left & ~right`. -/
def diff (left right : Events) : Events :=
  ⟨left.read && !right.read, left.write && !right.write⟩

def subset (left right : Events) : Bool :=
  left.diff right == none

def count (events : Events) : Nat :=
  events.read.toNat + events.write.toNat

end Events

structure FdEvent (Fiber : Type) where
  event : Events := .none
  rdtask : Option Fiber := none
  wrtask : Option Fiber := none

namespace FdEvent

variable {Fiber : Type}

def task (fdEvent : FdEvent Fiber) : EventType → Option Fiber
  | .read => fdEvent.rdtask
  | .write => fdEvent.wrtask

def setTask (fdEvent : FdEvent Fiber) (task : Option Fiber) : EventType → FdEvent Fiber
  | .read => { fdEvent with rdtask := task }
  | .write => { fdEvent with wrtask := task }

end FdEvent

/-- What `epoll_wait` reports for a descriptor. `hangup` is `EPOLLERR` or `EPOLLHUP`. -/
structure Ready where
  events : Events
  hangup : Bool
  deriving DecidableEq, Repr

/-- `interest` is what the kernel watches, `ready` the part of `events[]` the loop has not
handled yet, `failures` counts assertions that did not hold (they only log). The last four
fields record the run: the holds taken by `addHold`, the fibers put into slots, those
dropped by `delEvent` and those passed to the scheduler. -/
structure Reactor (Fiber : Type) where
  size : Nat
  eventMap : Nat → FdEvent Fiber
  interest : Nat → Events
  holdCount : Int
  ready : List (Nat × Ready)
  failures : Nat
  addedHolds : Int
  registered : List Fiber
  deleted : List Fiber
  handed : List Fiber

inductive ReactorAction (Fiber : Type)
  | addEvent (fd : Nat) (fiber : Fiber) (type : EventType) (setNonb epollCtl : Bool)
  | delEvent (fd : Nat) (type : EventType) (epollCtl : Bool)
  | cancelEvent (fd : Nat) (type : EventType) (epollCtl : Bool)
  | cancelAll (fd : Nat) (epollCtl : Bool)
  | addHold
  | delHold
  | epollWait (ready : List (Nat × Ready))
  | dispatch (epollCtl : Bool)
  deriving DecidableEq, Repr

namespace Reactor

variable {Fiber : Type}

def new (Fiber : Type) : Reactor Fiber where
  size := 4096
  eventMap _ := {}
  interest _ := .none
  holdCount := 0
  ready := []
  failures := 0
  addedHolds := 0
  registered := []
  deleted := []
  handed := []

def setFdEvent (reactor : Reactor Fiber) (fd : Nat) (fdEvent : FdEvent Fiber) :
    Reactor Fiber :=
  { reactor with eventMap := Function.update reactor.eventMap fd fdEvent }

/-- A successful `epoll_ctl`, whatever its operation. -/
def setInterest (reactor : Reactor Fiber) (fd : Nat) (events : Events) : Reactor Fiber :=
  { reactor with interest := Function.update reactor.interest fd events }

def assert (reactor : Reactor Fiber) (holds : Bool) : Reactor Fiber :=
  if holds then reactor else { reactor with failures := reactor.failures + 1 }

def resizeMap (reactor : Reactor Fiber) (size : Nat) : Reactor Fiber :=
  { reactor with size := size }

/-- `m_sched->addFiber(fiber)` does nothing with a null fiber. `triggerEvent` asserts that
the slot is taken for `READ` only. -/
def triggerEvent (reactor : Reactor Fiber) (fd : Nat) (type : EventType) : Reactor Fiber :=
  let epEv := reactor.eventMap fd
  let reactor := reactor.assert (epEv.event.has type)
  let reactor := reactor.assert (type != .read || epEv.rdtask.isSome)
  let reactor := reactor.setFdEvent fd
    ({ epEv with event := epEv.event.remove type }.setTask none type)
  { reactor with handed := reactor.handed ++ (epEv.task type).toList }

/-- `none` where `m_eventMap[fd]` is out of range. The table is doubled once. -/
def addEvent (reactor : Reactor Fiber) (fd : Nat) (fiber : Fiber) (type : EventType)
    (setNonb epollCtl : Bool) : Option (Reactor Fiber × Int) :=
  let reactor := if fd < reactor.size then reactor else reactor.resizeMap (reactor.size * 2)
  if fd < reactor.size then
    let epEv := reactor.eventMap fd
    if setNonb = false then some (reactor, -1)
    else if epEv.event.has type then some (reactor, -1)
    else if epollCtl = false then some (reactor, -1)
    else
      let reactor := reactor.setInterest fd (epEv.event.add type)
      let reactor := reactor.assert (epEv.task type).isNone
      let reactor := reactor.setFdEvent fd
        ({ epEv with event := epEv.event.add type }.setTask (some fiber) type)
      some ({ reactor with
        holdCount := reactor.holdCount + 1
        registered := reactor.registered ++ [fiber] }, 0)
  else none

def delEvent (reactor : Reactor Fiber) (fd : Nat) (type : EventType) (epollCtl : Bool) :
    Reactor Fiber × Int :=
  if fd ≥ reactor.size then (reactor, -1)
  else
    let epEv := reactor.eventMap fd
    if epEv.event.has type = false then (reactor, -1)
    else if epollCtl = false then (reactor, -1)
    else
      let reactor := reactor.setInterest fd (epEv.event.remove type)
      let reactor := reactor.setFdEvent fd
        ({ epEv with event := epEv.event.remove type }.setTask none type)
      ({ reactor with
        holdCount := reactor.holdCount - 1
        deleted := reactor.deleted ++ (epEv.task type).toList }, 0)

/-- `triggerEvent(epEv, type); --m_holdCount`. -/
def release (reactor : Reactor Fiber) (fd : Nat) (type : EventType) : Reactor Fiber :=
  let reactor := reactor.triggerEvent fd type
  { reactor with holdCount := reactor.holdCount - 1 }

def cancelEvent (reactor : Reactor Fiber) (fd : Nat) (type : EventType) (epollCtl : Bool) :
    Reactor Fiber × Int :=
  if fd ≥ reactor.size then (reactor, -1)
  else
    let epEv := reactor.eventMap fd
    if epEv.event.has type = false then (reactor, -1)
    else if epollCtl = false then (reactor, -2)
    else ((reactor.setInterest fd (epEv.event.remove type)).release fd type, 0)

def releaseIf (reactor : Reactor Fiber) (fd : Nat) (type : EventType) (taken : Bool) :
    Reactor Fiber :=
  if taken then reactor.release fd type else reactor

/-- The second test reads the bits that the first trigger has left. -/
def cancelAll (reactor : Reactor Fiber) (fd : Nat) (epollCtl : Bool) : Reactor Fiber × Int :=
  if fd ≥ reactor.size then (reactor, -1)
  else if (reactor.eventMap fd).event = .none then (reactor, 0)
  else if epollCtl = false then (reactor, -1)
  else
    let reactor := reactor.setInterest fd .none
    let reactor := reactor.releaseIf fd .read ((reactor.eventMap fd).event.has .read)
    let reactor := reactor.releaseIf fd .write ((reactor.eventMap fd).event.has .write)
    (reactor, 0)

/-- `real_event` of `Reactor::run`. -/
def realEvent (ready : Ready) (event : Events) : Events :=
  if ready.hangup then ready.events.union event else ready.events

/-- The body of the loop for one entry of `events[]`. -/
def handle (reactor : Reactor Fiber) (fd : Nat) (ready : Ready) (epollCtl : Bool) :
    Reactor Fiber :=
  let event := (reactor.eventMap fd).event
  let real := realEvent ready event
  if real.inter event = .none then reactor
  else if epollCtl = false then reactor
  else
    let reactor := reactor.setInterest fd (event.diff real)
    let reactor := reactor.releaseIf fd .read real.read
    reactor.releaseIf fd .write real.write

/-- `epoll_wait` reports each descriptor at most once, with events the kernel watches for. -/
def Reported (reactor : Reactor Fiber) (ready : List (Nat × Ready)) : Bool :=
  (ready.map Prod.fst).Nodup &&
    ready.all fun entry => entry.2.events.subset (reactor.interest entry.1)

def step (reactor : Reactor Fiber) : ReactorAction Fiber → Option (Reactor Fiber)
  | .addEvent fd fiber type setNonb epollCtl =>
      (reactor.addEvent fd fiber type setNonb epollCtl).map Prod.fst
  | .delEvent fd type epollCtl => some (reactor.delEvent fd type epollCtl).1
  | .cancelEvent fd type epollCtl => some (reactor.cancelEvent fd type epollCtl).1
  | .cancelAll fd epollCtl => some (reactor.cancelAll fd epollCtl).1
  | .addHold =>
      some { reactor with
        holdCount := reactor.holdCount + 1
        addedHolds := reactor.addedHolds + 1 }
  | .delHold =>
      some { reactor with
        holdCount := reactor.holdCount - 1
        addedHolds := reactor.addedHolds - 1 }
  | .epollWait ready =>
      if reactor.ready = [] ∧ reactor.Reported ready = true then
        some { reactor with ready := ready }
      else none
  | .dispatch epollCtl =>
      match reactor.ready with
      | [] => none
      | (fd, ready) :: rest => some ({ reactor with ready := rest }.handle fd ready epollCtl)

def machine (Fiber : Type) : Machine (Reactor Fiber) (ReactorAction Fiber) where
  initial reactor := reactor = new Fiber
  step := step

end Reactor

end FiberNet
